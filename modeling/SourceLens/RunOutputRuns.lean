import SourceLens.RunOutput

/-! Which runs keep the answer: frames whose saves are not overtaken by another frame's
save or by the end of the run. -/

namespace SourceLens.RunOutput

open Transition Option
open RunStatus (Status)

variable {Json : Type} {sanitize : Sanitizers Json} {row : Row Json} {world next : World Json}
  {action : Action Json} {frame : Frame Json}

variable {index : Nat}

/-- At a save the run has not ended, and the content that the frame has read is the
stored one wherever the new content depends on it. -/
def Undisturbed (world : World Json) : Action Json → Prop
  | .advance index => ∀ task ∈ world.tasks[index]?, match task with
      | .called _ => True
      | .contentSave frame read => world.row.run.status.terminal = false ∧
          (frame.replaces = false → world.row.outputMessage.all (decide <| · = read) = true)
      | .resultSave _ => world.row.run.status.terminal = false
  | _ => True

structure Faithful (row : Row Json) (world : World Json) : Prop where
  content : world.row.run.status.terminal = false →
    world.row.outputMessage = row.outputMessage.map (written · world.handled)
  frames : world.row.run.status.terminal = false → row.outputMessage.isSome = true →
    world.delivered.Perm (unsaved world.tasks ++ world.handled)
  ended : world.row.run.status.terminal = world.sealed.isSome
  kept : ∀ answer ∈ world.sealed, world.row.answer = answer

theorem content_replaces (replaces : frame.replaces = true) (stored read : String) :
    frame.content stored = frame.content read := by
  rw [Frame.replaces] at replaces
  rw [Frame.content, Frame.content]
  split at replaces
  · rw [if_neg (of_decide_eq_true replaces), if_neg (of_decide_eq_true replaces)]
  · rw [if_pos replaces, if_pos replaces]

theorem written_append (initial : String) (frames : List (Frame Json)) (frame : Frame Json) :
    written initial (frames ++ [frame]) = frame.content (written initial frames) := by
  rw [written, List.foldl_append]
  rfl

theorem unsaved_append (tasks : List (Task Json)) (frame : Frame Json) :
    unsaved (tasks ++ [.called frame]) = unsaved tasks ++ [frame] := by
  rw [unsaved, List.filterMap_append]
  rfl

theorem readRun_unsaved (open' : row.run.status.terminal = false)
    (present : row.outputMessage.isSome = true) :
    unsaved (readRun row frame).toList = [frame] := by
  obtain ⟨content, is⟩ := isSome_iff_exists.mp present
  rw [readRun, open', is]
  rfl

theorem afterContent_unsaved (frame : Frame Json) : unsaved (afterContent frame).toList = [] := by
  rw [afterContent]
  split <;> rfl

theorem unsaved_settle {tasks : List (Task Json)} {task : Task Json}
    (current : tasks[index]? = some task) (after : Option (Task Json)) :
    ∃ rest, (unsaved tasks).Perm (unsaved [task] ++ rest) ∧
      (unsaved (TaskPool.settle tasks index after)).Perm (unsaved after.toList ++ rest) := by
  obtain ⟨rest, before, later⟩ := TaskPool.settle_perm current after
  refine ⟨unsaved rest, ?_, ?_⟩
  · exact (before.filterMap _).trans (.of_eq (List.filterMap_append (l := [task]) ..))
  · exact (later.filterMap _).trans (.of_eq (List.filterMap_append ..))

theorem finishLensnodeRun_cases (open' : row.run.status.terminal = false) (done : RunDone Json)
    (now : Int) : (finishLensnodeRun sanitize row done now).run.status.terminal = true ∨
      (finishLensnodeRun sanitize row done now).run.status.terminal = false ∧
        (finishLensnodeRun sanitize row done now).answer = row.answer := by
  rw [finishLensnodeRun, open', if_neg Bool.false_ne_true]
  dsimp only
  split
  · exact .inr ⟨rfl, rfl⟩
  · split
    · exact .inr ⟨rfl, rfl⟩
    · split
      · left
        rw [terminate, resultSave]
        dsimp only
        cases done.status <;> rfl
      · exact .inr ⟨open', rfl⟩

theorem finishLensnodeRun_ended (ended : row.run.status.terminal = true) (done : RunDone Json)
    (now : Int) : finishLensnodeRun sanitize row done now = row := if_pos ended

theorem Faithful.unsealed (faithful : Faithful row world)
    (open' : world.row.run.status.terminal = false) : world.sealed = none := by
  rw [faithful.ended] at open'
  exact isNone_iff_eq_none.mp (isSome_eq_false_iff.mp open')

theorem finish_faithful (faithful : Faithful row world) (done : RunDone Json) (now : Int) :
    Faithful row (finish sanitize world done now) := by
  cases ended : world.row.run.status.terminal with
  | true =>
    obtain ⟨answer, sealed⟩ := isSome_iff_exists.mp (faithful.ended.symm.trans ended)
    have same : finish sanitize world done now = world := by
      rw [finish, finishLensnodeRun_ended ended, ended, if_pos rfl, sealed, getD_some,
        ← sealed]
    rw [same]
    exact faithful
  | false =>
    have unsealed := faithful.unsealed ended
    rcases finishLensnodeRun_cases ended done now with closed | ⟨stays, same⟩
    · have sealed : (finish sanitize world done now).sealed =
          some (finishLensnodeRun sanitize world.row done now).answer := by
        rw [finish, closed, if_pos rfl, unsealed]
        rfl
      refine ⟨?_, ?_, ?_, ?_⟩
      · exact fun open' => nomatch closed.symm.trans open'
      · exact fun open' => nomatch closed.symm.trans open'
      · rw [sealed]
        exact closed
      · intro answer committed
        rw [sealed] at committed
        exact Option.some.inj committed
    · have kept : (finish sanitize world done now).sealed = none := by
        rw [finish, stays, if_neg Bool.false_ne_true, unsealed]
      have content : (finishLensnodeRun sanitize world.row done now).outputMessage =
          world.row.outputMessage := congrArg Answer.content same
      refine ⟨?_, ?_, ?_, ?_⟩
      · exact fun _ => content.trans (faithful.content ended)
      · exact fun _ => faithful.frames ended
      · rw [kept]
        exact stays
      · rw [kept]
        intro answer committed
        cases committed

theorem contentSave_faithful (faithful : Faithful row world) {read : String}
    (current : world.tasks[index]? = some (.contentSave frame read))
    (open' : world.row.run.status.terminal = false)
    (fresh : frame.replaces = false → world.row.outputMessage.all (decide <| · = read) = true) :
    Faithful row (advance sanitize world index (.contentSave frame read)) where
  content := by
    intro _
    have stored := faithful.content open'
    cases message : row.outputMessage with
    | none =>
      rw [message] at stored
      rw [advance, contentSave, stored]
      rfl
    | some initial =>
      rw [message] at stored
      have same : frame.content read = frame.content (written initial world.handled) := by
        cases replaces : frame.replaces with
        | true => exact content_replaces replaces _ _
        | false =>
          have is := fresh replaces
          rw [stored] at is
          exact congrArg frame.content (of_decide_eq_true is).symm
      rw [advance, contentSave, stored, map_some, map_some, map_some,
        written_append, same]
  frames := by
    intro _ present
    obtain ⟨rest, before, after⟩ := unsaved_settle current (afterContent frame)
    rw [afterContent_unsaved] at after
    calc List.Perm world.delivered (unsaved world.tasks ++ world.handled) :=
          faithful.frames open' present
      List.Perm _ ((frame :: rest) ++ world.handled) := before.append_right _
      List.Perm _ (rest ++ (world.handled ++ [frame])) := by
          rw [← List.append_assoc]
          exact (List.perm_append_singleton frame (rest ++ world.handled)).symm
      List.Perm _ _ := after.symm.append_right _
  ended := faithful.ended
  kept := by
    intro answer committed
    rw [advance, faithful.unsealed open'] at committed
    cases committed

theorem read_faithful (faithful : Faithful row world)
    (current : world.tasks[index]? = some (.called frame)) :
    Faithful row (advance sanitize world index (.called frame)) where
  content := faithful.content
  frames := by
    intro open' present
    obtain ⟨rest, before, after⟩ := unsaved_settle current (readRun world.row frame)
    have stored := faithful.content open'
    have message : world.row.outputMessage.isSome = true := by
      rw [stored, isSome_map, present]
    have one : unsaved (readRun world.row frame).toList = [frame] := readRun_unsaved open' message
    rw [one] at after
    exact (faithful.frames open' present).trans ((before.trans after.symm).append_right _)
  ended := faithful.ended
  kept := faithful.kept

theorem resultSave_faithful (faithful : Faithful row world)
    (current : world.tasks[index]? = some (.resultSave frame))
    (open' : world.row.run.status.terminal = false) :
    Faithful row (advance sanitize world index (.resultSave frame)) where
  content := faithful.content
  frames := by
    intro _ present
    obtain ⟨rest, before, after⟩ := unsaved_settle current none
    exact (faithful.frames open' present).trans ((before.trans after.symm).append_right _)
  ended := faithful.ended
  kept := by
    intro answer committed
    rw [advance, faithful.unsealed open'] at committed
    cases committed

theorem step_faithful (faithful : Faithful row world) (quiet : Undisturbed world action)
    (taken : step sanitize world action = some next) : Faithful row next := by
  cases action with
  | deliver frame =>
    cases taken
    refine ⟨faithful.content, ?_, faithful.ended, faithful.kept⟩
    intro open' present
    rw [unsaved_append]
    calc List.Perm (world.delivered ++ [frame]) ((unsaved world.tasks ++ world.handled) ++ [frame]) :=
          (faithful.frames open' present).append_right _
      List.Perm _ (unsaved world.tasks ++ ([frame] ++ world.handled)) := by
          rw [List.append_assoc]
          exact List.perm_append_comm.append_left _
      _ = unsaved world.tasks ++ [frame] ++ world.handled := (List.append_assoc ..).symm
  | advance index =>
    rw [step, map_eq_some_iff] at taken
    obtain ⟨task, current, rfl⟩ := taken
    have allowed := quiet task current
    cases task with
    | called frame => exact read_faithful faithful current
    | contentSave frame read => exact contentSave_faithful faithful current allowed.1 allowed.2
    | resultSave frame => exact resultSave_faithful faithful current allowed
  | finish done now =>
    cases taken
    exact finish_faithful faithful done now
  | status status =>
    rw [step] at taken
    split at taken
    · cases taken
    · rename_i unfinished
      rw [Bool.not_eq_true, Bool.or_eq_false_iff] at unfinished
      obtain ⟨open', stays⟩ := unfinished
      cases taken
      refine ⟨fun _ => faithful.content open', fun _ => faithful.frames open', ?_, ?_⟩
      · exact stays.trans (open'.symm.trans faithful.ended)
      · intro answer committed
        rw [faithful.unsealed open'] at committed
        cases committed

theorem opened_faithful (open' : row.run.status.terminal = false) : Faithful row (opened row) where
  content := fun _ => map_id'.symm
  frames := fun _ _ => .nil
  ended := open'
  kept := fun _ committed => nomatch committed

/-- In every run without overtaken saves the content is that of the handled frames until
the run ends, and what the terminal transaction commits stays. -/
theorem answer_intact (open' : row.run.status.terminal = false) {actions : List (Action Json)}
    (run : Steps (step sanitize) Undisturbed (opened row) actions world) : Faithful row world := by
  refine run.invariant (Faithful row) ?_ (opened_faithful open')
  intro state action next faithful quiet taken
  exact step_faithful faithful quiet taken

instance (world : World Json) : (action : Action Json) → Decidable (Undisturbed world action)
  | .advance index =>
    match current : world.tasks[index]? with
    | none => .isTrue fun task is => nomatch current.symm.trans is
    | some (.called _) => .isTrue fun task is => by
      cases current.symm.trans is
      trivial
    | some (.contentSave frame read) =>
      decidable_of_iff (world.row.run.status.terminal = false ∧
          (frame.replaces = false → world.row.outputMessage.all (decide <| · = read) = true)) <| by
        rw [Undisturbed, current]
        exact ⟨fun facts task is => (Option.some.inj is) ▸ facts, fun facts => facts _ rfl⟩
    | some (Task.resultSave frame) =>
      decidable_of_iff (world.row.run.status.terminal = false) <| by
        rw [Undisturbed, current]
        exact ⟨fun facts task is => (Option.some.inj is) ▸ facts, fun facts => facts _ rfl⟩
  | .deliver _ => .isTrue trivial
  | .finish .. => .isTrue trivial
  | .status _ => .isTrue trivial

def streamingRow : Row Unit where
  run :=
    { id := 0
      status := .streaming
      session := 0
      assistant := 0
      parentRun := none
      lensnode := some 0
      evaluation := none
      error := ""
      outcome := none
      startedAt := some 0
      lastActivityAt := some 0
      resumeBy := none
      finishedAt := none
      createdAt := 0
      execution := none }
  outputMessage := some ""
  citations := ()
  plannedEvidence := ()

def delta (text : String) : Frame Unit := ⟨text, none, false, none, none⟩

def answered : RunDone Unit := ⟨.done, "", none, some "Hi there.", none, none, true⟩

theorem answer_intact_frames :
    ∃ world, Steps (step ⟨id, id⟩) Undisturbed (opened streamingRow)
        [.deliver (delta "Hi "), .advance 0, .advance 0, .deliver (delta "there"), .advance 0,
          .advance 0, .finish answered 1] world ∧
      world.row.answer = ⟨some "Hi there.", (), ()⟩ ∧ Faithful streamingRow world := by
  have outcome : (execGuarded (step ⟨id, id⟩) Undisturbed (opened streamingRow)
      [.deliver (delta "Hi "), .advance 0, .advance 0, .deliver (delta "there"), .advance 0,
        .advance 0, .finish answered 1]).any (fun world =>
          decide (world.row.answer = ⟨some "Hi there.", (), ()⟩)) = true := by
    decide +kernel
  obtain ⟨world, reached, is⟩ := (any_eq_true _ _).mp outcome
  have run := execGuarded_steps reached
  exact ⟨world, run, of_decide_eq_true is, answer_intact rfl run⟩

/-- Two connections read the content before either has saved it; and a frame that has
read the content before the run ends saves it afterwards. -/
theorem answer_overtaken :
    (∃ world, Steps (step ⟨id, id⟩) Any (opened streamingRow)
      [.deliver (delta "Hi "), .deliver (delta "there"), .advance 0, .advance 1, .advance 0,
        .advance 0] world ∧ world.handled = [delta "Hi ", delta "there"] ∧
          world.row.outputMessage = some "there") ∧
    ∃ world, Steps (step ⟨id, id⟩) Any (opened streamingRow)
      [.deliver (delta "Hi "), .advance 0, .finish answered 1, .advance 0] world ∧
        world.sealed = some ⟨some "Hi there.", (), ()⟩ ∧
          world.row.outputMessage = some "Hi " := by
  constructor
  · have outcome : (exec (step ⟨id, id⟩) (opened streamingRow)
        [.deliver (delta "Hi "), .deliver (delta "there"), .advance 0, .advance 1, .advance 0,
          .advance 0]).any (fun world => decide (world.handled = [delta "Hi ", delta "there"] ∧
            world.row.outputMessage = some "there")) = true := by
      decide +kernel
    obtain ⟨world, reached, facts⟩ := (any_eq_true _ _).mp outcome
    exact ⟨world, exec_steps reached, of_decide_eq_true facts⟩
  · have outcome : (exec (step ⟨id, id⟩) (opened streamingRow)
        [.deliver (delta "Hi "), .advance 0, .finish answered 1, .advance 0]).any (fun world =>
          decide (world.sealed = some ⟨some "Hi there.", (), ()⟩ ∧
            world.row.outputMessage = some "Hi ")) = true := by
      decide +kernel
    obtain ⟨world, reached, facts⟩ := (any_eq_true _ _).mp outcome
    exact ⟨world, exec_steps reached, of_decide_eq_true facts⟩

end SourceLens.RunOutput
