import Mathlib.Data.List.Nodup
import Mathlib.Data.List.Perm.Subperm
import SourceLens.LoginCodeSend

/-! In an orderly run the allowed calls keep the limits: their counts are drawn once each. -/

namespace SourceLens.LoginCodeSend

open Transition List

variable {settings : Settings} {lower : Text → Text} {world next : World} {call : Call}
  {index : Nat} {key : Key} {rest : List Key} {ticket : Ticket}

def ticketsOf (allowed : List Allowed) (calls : List Call) : List Ticket :=
  allowed.flatMap Allowed.tickets ++ calls.flatMap Call.tickets

def World.tickets (world : World) : List Ticket := ticketsOf world.allowed world.calls

theorem tickets_settle (allowed : List Allowed) {calls : List Call}
    (current : calls[index]? = some call) (onward : Option Call) :
    ∃ others, (ticketsOf allowed calls).Perm (call.tickets ++ others) ∧
      (ticketsOf allowed (TaskPool.settle calls index onward)).Perm
        (onward.toList.flatMap Call.tickets ++ others) := by
  obtain ⟨rest, whole, settled⟩ := TaskPool.settle_perm current onward
  refine ⟨allowed.flatMap Allowed.tickets ++ rest.flatMap Call.tickets, ?_, ?_⟩
  · have moved := (whole.flatMap_right Call.tickets).append_left (allowed.flatMap Allowed.tickets)
    refine moved.trans ?_
    rw [flatMap_cons]
    exact perm_append_comm_assoc _ _ _
  · have moved := (settled.flatMap_right Call.tickets).append_left (allowed.flatMap Allowed.tickets)
    refine moved.trans ?_
    rw [flatMap_append]
    exact perm_append_comm_assoc _ _ _

theorem tickets_bounded {tickets : List Ticket} (distinct : tickets.Nodup) {limit life : Nat}
    (bound : ∀ ticket ∈ tickets, 1 ≤ ticket.count ∧ ticket.count ≤ limit)
    (same : ∀ ticket ∈ tickets, ticket.key = key ∧ ticket.life = life) :
    tickets.length ≤ limit := by
  have apart : (tickets.map Ticket.count).Nodup := by
    apply List.Nodup.map_on _ distinct
    intro first inFirst second inSecond equal
    obtain ⟨key₁, life₁⟩ := same first inFirst
    obtain ⟨key₂, life₂⟩ := same second inSecond
    cases first
    cases second
    simp_all
  have within : tickets.map Ticket.count ⊆ List.range' 1 limit := by
    intro count member
    obtain ⟨ticket, inside, rfl⟩ := mem_map.mp member
    have bounds := bound ticket inside
    rw [mem_range'_1]
    omega
  have most := (subperm_of_subset apart within).length_le
  simpa using most

theorem filter_le_flatMap {Row Item : Type} {picks : Row → Bool} {items : Row → List Item}
    {wanted : Item → Bool} {rows : List Row}
    (has : ∀ row ∈ rows, picks row = true → ∃ item ∈ items row, wanted item = true) :
    (rows.filter picks).length ≤ ((rows.flatMap items).filter wanted).length := by
  induction rows with
  | nil => exact Nat.le_refl _
  | cons row rows ih =>
    have later := ih fun other member => has other (mem_cons_of_mem _ member)
    rw [flatMap_cons, filter_append, length_append]
    cases picked : picks row with
    | false =>
      rw [filter_cons_of_neg (by simp [picked])]
      omega
    | true =>
      obtain ⟨item, inside, is⟩ := has row mem_cons_self picked
      have some := length_pos_of_mem (mem_filter.mpr ⟨inside, is⟩)
      rw [filter_cons_of_pos picked, length_cons]
      omega

structure World.Sound (settings : Settings) (world : World) : Prop where
  distinct : world.tickets.Nodup
  drawn : ∀ ticket ∈ world.tickets, ticket.life ≤ world.lives ticket.key ∧ 1 ≤ ticket.count ∧
    ticket.count ≤ settings.limit ticket.key
  current : ∀ ticket ∈ world.tickets, ticket.life = world.lives ticket.key →
    ∃ entry, world.cache ticket.key = some entry ∧ ticket.count ≤ entry.value
  counters : ∀ call ∈ world.calls, call.tickets.map Ticket.key ++ call.counters = call.keys
  lives : ∀ call ∈ world.allowed, ∀ key life, (key, life) ∈ call.lives →
    ∃ ticket ∈ call.tickets, ticket.key = key ∧ ticket.life = life
  apart : world.allowed.Pairwise fun earlier later =>
    earlier.email = later.email → earlier.time + settings.cooldownSeconds ≤ later.time
  past : ∀ call ∈ world.allowed, call.time ≤ world.now
  cooling : ∀ call ∈ world.allowed, ∃ entry, world.cache (.cooldown call.email) = some entry ∧
    call.time + settings.cooldownSeconds ≤ entry.deadline

theorem World.Sound.limited (sound : world.Sound settings) : Limited settings world.allowed where
  apart := sound.apart
  counted := by
    intro key life
    let wanted := fun ticket : Ticket => decide (ticket.key = key ∧ ticket.life = life)
    have drawn : ∀ call ∈ world.allowed, decide ((key, life) ∈ call.lives) = true →
        ∃ ticket ∈ call.tickets, wanted ticket = true := by
      intro call member picked
      obtain ⟨ticket, inside, is⟩ := sound.lives call member key life (of_decide_eq_true picked)
      exact ⟨ticket, inside, decide_eq_true is⟩
    refine Nat.le_trans (filter_le_flatMap drawn) ?_
    have part : ((world.allowed.flatMap Allowed.tickets).filter wanted).Sublist world.tickets :=
      filter_sublist.trans (sublist_append_left _ _)
    have same : ∀ ticket ∈ (world.allowed.flatMap Allowed.tickets).filter wanted,
        ticket.key = key ∧ ticket.life = life :=
      fun ticket member => of_decide_eq_true (mem_filter.mp member).2
    refine tickets_bounded (sound.distinct.sublist part) ?_ same
    intro ticket member
    obtain ⟨_, positive, below⟩ := sound.drawn ticket (part.subset member)
    exact ⟨positive, (same ticket member).1 ▸ below⟩

@[simp] theorem set_now (world : World) (key : Key) (value deadline : Nat) :
    (world.set key value deadline).now = world.now := rfl

@[simp] theorem set_allowed (world : World) (key : Key) (value deadline : Nat) :
    (world.set key value deadline).allowed = world.allowed := rfl

@[simp] theorem set_calls (world : World) (key : Key) (value deadline : Nat) :
    (world.set key value deadline).calls = world.calls := rfl

theorem set_cache_self (world : World) (key : Key) (value deadline : Nat) :
    (world.set key value deadline).cache key = some ⟨value, deadline⟩ :=
  ExpiringCache.set_self ..

theorem set_cache_other (world : World) {other : Key} (value deadline : Nat)
    (different : other ≠ key) :
    (world.set key value deadline).cache other = world.cache other :=
  ExpiringCache.set_other _ value deadline different

theorem set_lives_other (world : World) {other : Key} (value deadline : Nat)
    (different : other ≠ key) :
    (world.set key value deadline).lives other = world.lives other := by
  unfold World.set
  dsimp only
  split
  · exact Function.update_of_ne different _ _
  · rfl

theorem set_lives_self (world : World) (key : Key) (value deadline : Nat) :
    (world.set key value deadline).lives key =
      world.lives key + if world.get key = none then 1 else 0 := by
  unfold World.set
  dsimp only
  split
  · exact Function.update_self ..
  · rfl

theorem le_set_lives (world : World) (key other : Key) (value deadline : Nat) :
    world.lives other ≤ (world.set key value deadline).lives other := by
  by_cases same : other = key
  · subst same
    rw [set_lives_self]
    exact Nat.le_add_right _ _
  · exact Nat.le_of_eq (set_lives_other world value deadline same).symm

theorem set_sound (sound : world.Sound settings) {value deadline : Nat} {calls : List Call}
    (counter : ∀ email, key ≠ .cooldown email) (positive : 1 ≤ value)
    (fresh : ∀ ticket ∈ world.tickets, ticket.key = key →
      ticket.life = (world.set key value deadline).lives key → ticket.count < value)
    (within : value ≤ settings.limit key ∨
      (ticketsOf world.allowed calls).Subperm world.tickets)
    (drawn : (ticketsOf world.allowed calls).Subperm
      (⟨key, (world.set key value deadline).lives key, value⟩ :: world.tickets))
    (counters : ∀ call ∈ calls, call.tickets.map Ticket.key ++ call.counters = call.keys) :
    World.Sound settings { world.set key value deadline with calls := calls } := by
  have among : ∀ ticket ∈ ticketsOf world.allowed calls, ticket ∈ world.tickets ∨
      value ≤ settings.limit key ∧
        ticket = ⟨key, (world.set key value deadline).lives key, value⟩ := by
    intro ticket member
    rcases within with below | fewer
    · rcases mem_cons.mp (drawn.subset member) with new | old
      · exact .inr ⟨below, new⟩
      · exact .inl old
    · exact .inl (fewer.subset member)
  have unseen : ⟨key, (world.set key value deadline).lives key, value⟩ ∉ world.tickets :=
    fun member => Nat.lt_irrefl _ (fresh _ member rfl rfl)
  constructor
  · obtain ⟨kept, same, part⟩ := drawn
    have whole := nodup_cons.mpr ⟨unseen, sound.distinct⟩
    exact same.nodup_iff.mp (whole.sublist part)
  · intro ticket member
    rcases among ticket member with old | ⟨below, rfl⟩
    · obtain ⟨life, bounds⟩ := sound.drawn ticket old
      exact ⟨Nat.le_trans life (le_set_lives world key ticket.key value deadline), bounds⟩
    · exact ⟨Nat.le_refl _, positive, below⟩
  · intro ticket member is
    rcases among ticket member with old | ⟨_, rfl⟩
    · by_cases same : ticket.key = key
      · refine ⟨⟨value, deadline⟩, ?_, Nat.le_of_lt (fresh ticket old same (same ▸ is))⟩
        rw [same]
        exact set_cache_self ..
      · obtain ⟨entry, stored, most⟩ := sound.current ticket old
          (is.trans (set_lives_other world value deadline same))
        exact ⟨entry, (set_cache_other world value deadline same).trans stored, most⟩
    · exact ⟨_, set_cache_self .., Nat.le_refl _⟩
  · exact counters
  · exact sound.lives
  · exact sound.apart
  · exact sound.past
  · intro call member
    obtain ⟨entry, stored, late⟩ := sound.cooling call member
    exact ⟨entry, (set_cache_other world value deadline (counter _).symm).trans stored, late⟩

theorem counters_settle (sound : world.Sound settings) (onward : Option Call)
    (kept : ∀ call ∈ onward, call.tickets.map Ticket.key ++ call.counters = call.keys) :
    ∀ call ∈ TaskPool.settle world.calls index onward,
      call.tickets.map Ticket.key ++ call.counters = call.keys := by
  intro call member
  rcases TaskPool.mem_settle member with old | new
  · exact sound.counters call old
  · exact kept call new

theorem key_of_counter (sound : world.Sound settings) (current : world.calls[index]? = some call)
    (counters : call.counters = key :: rest) (email : Text) : key ≠ .cooldown email := by
  have keys := sound.counters call (mem_of_getElem? current)
  have member : key ∈ call.keys := by
    rw [← keys, counters]
    simp
  rintro rfl
  simp [Call.keys] at member

theorem count_sound (sound : world.Sound settings) (current : world.calls[index]? = some call)
    (counters : call.counters = key :: rest) {value : Nat} (deadline : Nat) (positive : 1 ≤ value)
    (fresh : ∀ ticket ∈ world.tickets, ticket.key = key →
      ticket.life = (world.set key value deadline).lives key → ticket.count < value) :
    World.Sound settings { world.set key value deadline with
      calls := TaskPool.settle world.calls index
        (call.counted settings key rest ⟨key, (world.set key value deadline).lives key, value⟩) } := by
  have counter := key_of_counter sound current counters
  have keys := sound.counters call (mem_of_getElem? current)
  unfold Call.counted
  by_cases above : settings.limit key < value
  · rw [if_pos above]
    obtain ⟨others, whole, settled⟩ := tickets_settle world.allowed current none
    have fewer : (ticketsOf world.allowed (TaskPool.settle world.calls index none)).Subperm
        world.tickets :=
      settled.subperm.trans
        ((sublist_append_right call.tickets others).subperm.trans whole.symm.subperm)
    exact set_sound sound counter positive fresh (.inr fewer)
      (fewer.trans (sublist_cons_self _ _).subperm)
      (counters_settle sound none (by rintro _ ⟨⟩))
  · rw [if_neg above]
    obtain ⟨others, whole, settled⟩ := tickets_settle world.allowed current
      (some { call with counters := rest, phase := .add, tickets := call.tickets ++
        [⟨key, (world.set key value deadline).lives key, value⟩] })
    simp only [Option.toList_some, flatMap_cons, flatMap_nil, append_nil,
      append_assoc, singleton_append] at settled
    have more := settled.trans (perm_middle.trans (whole.symm.cons _))
    refine set_sound sound counter positive fresh (.inl (Nat.le_of_not_lt above)) more.subperm
      (counters_settle sound _ ?_)
    rintro _ ⟨⟩
    rw [counters] at keys
    rw [map_append, append_assoc]
    exact keys

theorem fresh_of_gone (sound : world.Sound settings) (gone : world.get key = none)
    (deadline : Nat) : ∀ ticket ∈ world.tickets, ticket.key = key →
      ticket.life = (world.set key 1 deadline).lives key → ticket.count < 1 := by
  rintro ticket member rfl is
  have old := (sound.drawn ticket member).1
  rw [set_lives_self, if_pos gone] at is
  omega

theorem fresh_of_alive (sound : world.Sound settings) {entry : ExpiringCache.Entry Nat}
    (stored : world.cache key = some entry) (alive : world.get key = some entry.value)
    (deadline : Nat) : ∀ ticket ∈ world.tickets, ticket.key = key →
      ticket.life = (world.set key (entry.value + 1) deadline).lives key →
        ticket.count < entry.value + 1 := by
  rintro ticket member rfl is
  rw [set_lives_self, alive] at is
  obtain ⟨other, same, most⟩ := sound.current ticket member (by simpa using is)
  rw [stored] at same
  cases same
  omega

theorem phase_sound (sound : world.Sound settings) (current : world.calls[index]? = some call)
    (counters : call.counters = key :: rest) (phase : Phase) :
    World.Sound settings { world with
      calls := TaskPool.settle world.calls index
        (some { call with counters := key :: rest, phase := phase }) } := by
  obtain ⟨others, whole, settled⟩ := tickets_settle world.allowed current
    (some { call with counters := key :: rest, phase := phase })
  have same := settled.trans (.trans (by simp) whole.symm)
  have kept : ∀ other ∈ some { call with counters := key :: rest, phase := phase },
      other.tickets.map Ticket.key ++ other.counters = other.keys := by
    rintro _ ⟨⟩
    rw [← counters]
    exact sound.counters call (mem_of_getElem? current)
  exact { sound with
    distinct := same.nodup_iff.mpr sound.distinct
    drawn := fun ticket member => sound.drawn ticket (same.subset member)
    current := fun ticket member => sound.current ticket (same.subset member)
    counters := counters_settle sound _ kept }

theorem allow_sound (sound : world.Sound settings) (current : world.calls[index]? = some call)
    (drawn : call.counters = []) (cool : world.get (.cooldown call.email) = none)
    (same : ∀ ticket ∈ call.tickets, (world.get ticket.key).isSome = true →
      ticket.life = world.lives ticket.key) :
    World.Sound settings
      { world.set (.cooldown call.email) 1 (world.now + settings.cooldownSeconds) with
        allowed := world.allowed ++ [⟨call.email, call.ip, world.now, call.tickets,
          (call.keys.filter fun key => (world.get key).isSome).map fun key =>
            (key, world.lives key)⟩]
        calls := TaskPool.settle world.calls index none } := by
  have keys := sound.counters call (mem_of_getElem? current)
  rw [drawn, append_nil] at keys
  obtain ⟨others, whole, settled⟩ := tickets_settle world.allowed current none
  have moved : (ticketsOf (world.allowed ++ [⟨call.email, call.ip, world.now, call.tickets,
      (call.keys.filter fun key => (world.get key).isSome).map fun key =>
        (key, world.lives key)⟩]) (TaskPool.settle world.calls index none)).Perm
      (ticketsOf world.allowed world.calls) := by
    have front : (call.tickets ++ ticketsOf world.allowed
        (TaskPool.settle world.calls index none)).Perm (call.tickets ++ others) :=
      settled.append_left call.tickets
    refine .trans ?_ (front.trans whole.symm)
    simp only [ticketsOf, flatMap_append, flatMap_singleton, append_assoc]
    exact perm_append_comm_assoc _ _ _
  constructor
  · exact moved.nodup_iff.mpr sound.distinct
  · intro ticket member
    obtain ⟨life, bounds⟩ := sound.drawn ticket (moved.subset member)
    have grown := le_set_lives world (.cooldown call.email) ticket.key 1
      (world.now + settings.cooldownSeconds)
    exact ⟨Nat.le_trans life grown, bounds⟩
  · intro ticket member is
    have old := moved.subset member
    by_cases cooldown : ticket.key = .cooldown call.email
    · -- No cooldown is alive, so this one is new.
      have life := (sound.drawn ticket old).1
      rw [cooldown] at is life
      have fresh := set_lives_self world (.cooldown call.email) 1
        (world.now + settings.cooldownSeconds)
      rw [if_pos cool] at fresh
      exact absurd (is.trans fresh) (Nat.ne_of_lt (Nat.lt_succ_of_le life))
    · obtain ⟨entry, stored, most⟩ := sound.current ticket old
        (is.trans (set_lives_other world 1 (world.now + settings.cooldownSeconds) cooldown))
      exact ⟨entry, (set_cache_other world _ _ cooldown).trans stored, most⟩
  · exact counters_settle sound none (by rintro _ ⟨⟩)
  · intro other member key life alive
    rcases mem_append.mp member with old | new
    · exact sound.lives other old key life alive
    · obtain rfl := mem_singleton.mp new
      obtain ⟨found, inside, is⟩ := mem_map.mp alive
      obtain ⟨rfl, rfl⟩ := Prod.mk.inj is
      obtain ⟨counter, isAlive⟩ := mem_filter.mp inside
      rw [← keys] at counter
      obtain ⟨ticket, has, rfl⟩ := mem_map.mp counter
      exact ⟨ticket, has, rfl, same ticket has isAlive⟩
  · rw [pairwise_append]
    refine ⟨sound.apart, pairwise_singleton _ _, ?_⟩
    intro earlier member later new email
    obtain rfl := mem_singleton.mp new
    obtain ⟨entry, stored, late⟩ := sound.cooling earlier member
    rw [email] at stored
    have gone : ¬ world.now < entry.deadline := by
      intro fresh
      have alive := ExpiringCache.get_of_entry stored fresh
      exact absurd (alive.symm.trans cool) (Option.some_ne_none _)
    exact Nat.le_trans late (Nat.le_of_not_lt gone)
  · intro other member
    rcases mem_append.mp member with old | new
    · exact sound.past other old
    · obtain rfl := mem_singleton.mp new
      exact Nat.le_refl _
  · intro other member
    by_cases email : other.email = call.email
    · refine ⟨_, by rw [email]; exact set_cache_self .., ?_⟩
      have past : other.time ≤ world.now := by
        rcases mem_append.mp member with old | new
        · exact sound.past other old
        · obtain rfl := mem_singleton.mp new
          exact Nat.le_refl _
      exact Nat.add_le_add_right past _
    · rcases mem_append.mp member with old | new
      · obtain ⟨entry, stored, late⟩ := sound.cooling other old
        have different : Key.cooldown other.email ≠ .cooldown call.email := by
          simpa using email
        exact ⟨entry, (set_cache_other world _ _ different).trans stored, late⟩
      · obtain rfl := mem_singleton.mp new
        exact absurd rfl email

theorem join_sound (sound : world.Sound settings) (none : call.tickets = [])
    (all : call.counters = call.keys) :
    World.Sound settings { world with calls := world.calls ++ [call] } := by
  have unchanged : ticketsOf world.allowed (world.calls ++ [call]) = world.tickets := by
    simp [ticketsOf, World.tickets, none]
  refine { sound with
    distinct := ?_
    drawn := fun ticket member => sound.drawn ticket (unchanged ▸ member)
    current := fun ticket member => sound.current ticket (unchanged ▸ member)
    counters := ?_ }
  · have same : World.tickets { world with calls := world.calls ++ [call] } = world.tickets :=
      unchanged
    exact same ▸ sound.distinct
  · intro other member
    rcases mem_append.mp member with old | new
    · exact sound.counters other old
    · rw [mem_singleton.mp new, none, all]
      rfl

theorem canSend_sound (sound : world.Sound settings) (email : Text) (ip : Option Text) :
    (canSend lower world email ip).Sound settings := by
  unfold canSend
  dsimp only
  split
  · exact sound
  · exact join_sound sound rfl rfl

theorem advance_sound (sound : world.Sound settings) (current : world.calls[index]? = some call)
    (met : call.Meets world) : World.Sound settings
      { (call.advance settings world).1 with
        calls := TaskPool.settle world.calls index (call.advance settings world).2 } := by
  unfold Call.advance
  cases counters : call.counters with
  | nil =>
    obtain ⟨cool, same⟩ : world.get (.cooldown call.email) = none ∧
        ∀ ticket ∈ call.tickets, (world.get ticket.key).isSome = true →
          ticket.life = world.lives ticket.key := by
      simpa only [Call.Meets, counters] using met
    exact allow_sound sound current counters cool same
  | cons key rest =>
    cases phase : call.phase with
    | add =>
      by_cases gone : world.get key = none
      · simp only [if_pos gone]
        exact count_sound sound current counters _ (Nat.le_refl _) (fresh_of_gone sound gone _)
      · simp only [if_neg gone]
        exact phase_sound sound current counters .incr
    | incr =>
      cases stored : world.cache key with
      | none =>
        simp only [stored]
        exact phase_sound sound current counters .set
      | some entry =>
        cases found : world.get key with
        | none =>
          simp only [stored, found]
          exact phase_sound sound current counters .set
        | some count =>
          obtain ⟨deadline, same, _⟩ := ExpiringCache.entry_of_get found
          rw [stored] at same
          cases same
          simp only [stored, found]
          exact count_sound sound current counters _ (Nat.le_add_left _ _)
            (fresh_of_alive sound stored found _)
    | set =>
      have gone : world.get key = none := by
        simpa only [Call.Meets, counters, phase] using met
      exact count_sound sound current counters _ (Nat.le_refl _) (fresh_of_gone sound gone _)

theorem step_sound (sound : world.Sound settings) (action : Action)
    (orderly : Orderly world action) (taken : step settings lower world action = some next) :
    next.Sound settings := by
  cases action with
  | wait ticks =>
    cases taken
    exact { sound with
      past := fun call member => Nat.le_trans (sound.past call member) (Nat.le_add_right _ _) }
  | canSend email ip =>
    cases taken
    exact canSend_sound sound email ip
  | advance index =>
    obtain ⟨call, current, rfl⟩ := Option.map_eq_some_iff.mp taken
    exact advance_sound sound current (orderly call current)

theorem initial_sound : World.initial.Sound settings where
  distinct := .nil
  drawn := by rintro _ ⟨⟩
  current := by rintro _ ⟨⟩
  counters := by rintro _ ⟨⟩
  lives := by rintro _ ⟨⟩
  apart := .nil
  past := by rintro _ ⟨⟩
  cooling := by rintro _ ⟨⟩

/-- In every run whose steps all meet the condition, the allowed calls keep the limits. -/
theorem sends_limited {actions : List Action} {finish : World}
    (run : Steps (step settings lower) Orderly World.initial actions finish) :
    Limited settings finish.allowed := by
  have sound := run.invariant (World.Sound settings)
    (fun _ action _ sound orderly taken => step_sound sound action orderly taken) initial_sound
  exact sound.limited

instance (world : World) (call : Call) : Decidable (call.Meets world) :=
  match drawn : call.counters, stands : call.phase with
  | key :: _, .set => decidable_of_iff (world.get key = none) (by simp [Call.Meets, drawn, stands])
  | _ :: _, .add => isTrue (by simp [Call.Meets, drawn, stands])
  | _ :: _, .incr => isTrue (by simp [Call.Meets, drawn, stands])
  | [], _ => decidable_of_iff (world.get (.cooldown call.email) = none ∧
      ∀ ticket ∈ call.tickets, (world.get ticket.key).isSome = true →
        ticket.life = world.lives ticket.key) (by simp [Call.Meets, drawn])

instance (world : World) : (action : Action) → Decidable (Orderly world action)
  | .advance index => inferInstanceAs (Decidable (∀ call ∈ world.calls[index]?, call.Meets world))
  | .wait _ | .canSend _ _ => isTrue trivial

/-- A minute, ten codes a day for an email, twenty an hour for an address. -/
def defaults : Settings := ⟨60, 10, 20⟩

def mail : Text := ['m']

def twoSends : List Action :=
  [.canSend mail (some ['1']), .advance 0, .advance 0, .advance 0, .wait 60,
    .canSend mail none, .advance 0, .advance 0, .advance 0]

theorem sends_limited_two : ∃ finish,
    Steps (step defaults id) Orderly World.initial twoSends finish ∧
      finish.allowed.map Allowed.time = [0, 60] ∧ Limited defaults finish.allowed := by
  have reaches : (execGuarded (step defaults id) Orderly World.initial twoSends).any
      (fun finish => decide (finish.allowed.map Allowed.time = [0, 60])) = true := by
    decide
  obtain ⟨finish, executed, times⟩ := (Option.any_eq_true _ _).mp reaches
  have run := execGuarded_steps executed
  exact ⟨finish, run, of_decide_eq_true times, sends_limited run⟩

def overlapping : List Action :=
  [.canSend mail none, .canSend mail none, .advance 0, .advance 1, .advance 1, .advance 0,
    .advance 0]

/-- Both are allowed at the same time. -/
theorem sends_together : ∃ finish, Reachable (step defaults id) World.initial finish ∧
    ¬ Limited defaults finish.allowed := by
  have reaches : (exec (step defaults id) World.initial overlapping).any
      (fun finish => decide (finish.allowed.map (fun call => (call.email, call.time)) =
        [(mail, 0), (mail, 0)])) = true := by
    decide
  obtain ⟨finish, executed, times⟩ := (Option.any_eq_true _ _).mp reaches
  refine ⟨finish, ⟨overlapping, exec_steps executed⟩, fun limited => ?_⟩
  have shown := of_decide_eq_true times
  have apart : (finish.allowed.map fun call => (call.email, call.time)).Pairwise
      fun earlier later => earlier.1 = later.1 → earlier.2 + 60 ≤ later.2 :=
    pairwise_map.mpr limited.apart
  rw [shown] at apart
  revert apart
  decide

end SourceLens.LoginCodeSend
