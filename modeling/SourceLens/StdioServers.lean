import Mathlib
import SourceLens.Library.PyText

/-! The end of a stdio MCP server: the processes that `_terminate_stdio_servers` of `mcp_tools.py`
signals. -/

namespace SourceLens.StdioServers

open List
open PyText (isSpace stripLeft)

structure Process where
  pid : Nat
  pgid : Nat
  argv : List (List Char)
  deriving DecidableEq

/-- The processes of the host, with the agent's own process and group. -/
structure Host where
  processes : List Process
  own : Nat
  ownGroup : Nat
  distinct : (processes.map Process.pid).Nodup
  /-- The agent's process is in the agent's group. -/
  grouped : ∀ process ∈ processes, process.pid = own → process.pgid = ownGroup

structure Server where
  command : List Char
  args : List (List Char)

def Server.vector (server : Server) : List (List Char) := server.command :: server.args

/-- `needle` -/
def needle (server : Server) : List (List Char) :=
  server.vector.filter fun item => item.any fun c => !isSpace c

/-- The arguments as `ps` prints them, one space between two of them. -/
def commandLine (process : Process) : List Char := List.intercalate [' '] process.argv

/-- `_process_table`: the process ids with the rest of their lines. -/
def processTable (host : Host) : List (Nat × List Char) :=
  host.processes.filterMap fun process =>
    match stripLeft isSpace (commandLine process) with
    | [] => none
    | text => some (process.pid, text)

inductive Target
  | process (pid : Nat)
  | group (pgid : Nat)
  deriving DecidableEq

inductive Signal
  | sigterm
  | sigkill
  deriving DecidableEq

/-- What the system answers to a signal: it is sent, there is no such process, or an `OSError`. -/
inductive Answer
  | sent
  | lost
  | refused
  deriving DecidableEq

abbrev System := Target → Signal → Answer

def signals (system : System) (target : Target) : List (Target × Signal) :=
  match system target .sigterm with
  | .sent => [(target, .sigterm), (target, .sigkill)]
  | _ => [(target, .sigterm)]

/-- `_terminate_process_group` -/
def terminateProcessGroup (host : Host) (system : System) (pid : Nat) : List (Target × Signal) :=
  if pid = host.own then []
  else
    match host.processes.find? fun process => process.pid == pid with
    | none => []
    | some process =>
      if process.pgid = host.ownGroup then []
      else if process.pgid = pid then signals system (.group process.pgid)
      else signals system (.process pid)

/-- `_terminate_stdio_servers` with the calls of `os.kill` and `os.killpg` that it makes. -/
def terminateStdioServers (host : Host) (system : System) (server : Server) :
    List (Target × Signal) :=
  if needle server = [] then []
  else
    (processTable host).flatMap fun (pid, text) =>
      if ∀ item ∈ needle server, item <:+: text then terminateProcessGroup host system pid else []

def Target.reaches (target : Target) (process : Process) : Prop :=
  match target with
  | .process pid => process.pid = pid
  | .group pgid => process.pgid = pgid

/-- The argument vector holds the command and the arguments as whole arguments. -/
def Runs (server : Server) (process : Process) : Prop :=
  ∀ item ∈ server.vector, item ∈ process.argv

/-- A process of the server, or a member of the group that one leads. -/
def Intended (host : Host) (server : Server) (process : Process) : Prop :=
  Runs server process ∨ ∃ leader ∈ host.processes,
    leader.pid = leader.pgid ∧ process.pgid = leader.pgid ∧ Runs server leader

/-- Only intended processes are signalled, and none of the agent's group. -/
def Exact (host : Host) (server : Server) (calls : List (Target × Signal)) : Prop :=
  ∀ call ∈ calls, ∀ process ∈ host.processes, call.1.reaches process →
    Intended host server process ∧ process.pid ≠ host.own ∧ process.pgid ≠ host.ownGroup

/-- Every part of the server's command line is found somewhere in that of the process. -/
def Resembles (server : Server) (process : Process) : Prop :=
  needle server ≠ [] ∧ stripLeft isSpace (commandLine process) ≠ [] ∧
    ∀ item ∈ needle server, item <:+: stripLeft isSpace (commandLine process)

instance (server : Server) (process : Process) : Decidable (Runs server process) :=
  inferInstanceAs (Decidable (∀ item ∈ _, _))

instance (host : Host) (server : Server) (process : Process) :
    Decidable (Intended host server process) :=
  inferInstanceAs (Decidable (_ ∨ ∃ leader ∈ _, _))

instance (server : Server) (process : Process) : Decidable (Resembles server process) :=
  inferInstanceAs (Decidable (_ ∧ _))

variable {host : Host} {system : System} {server : Server} {process : Process}

theorem mem_processTable {pid : Nat} {text : List Char} (listed : (pid, text) ∈ processTable host) :
    ∃ process ∈ host.processes, process.pid = pid ∧ text ≠ [] ∧
      text = stripLeft isSpace (commandLine process) := by
  rcases mem_filterMap.mp listed with ⟨process, member, row⟩
  refine ⟨process, member, ?_⟩
  cases line : stripLeft isSpace (commandLine process) with
  | nil =>
    rw [line] at row
    cases row
  | cons first rest =>
    rw [line] at row
    cases row
    exact ⟨rfl, cons_ne_nil _ _, rfl⟩

theorem processTable_mem (member : process ∈ host.processes)
    (shown : stripLeft isSpace (commandLine process) ≠ []) :
    (process.pid, stripLeft isSpace (commandLine process)) ∈ processTable host := by
  refine mem_filterMap.mpr ⟨process, member, ?_⟩
  split
  · contradiction
  · rfl

theorem same_pid {other : Process} (member : process ∈ host.processes)
    (another : other ∈ host.processes) (same : process.pid = other.pid) : process = other :=
  inj_on_of_nodup_map host.distinct member another same

theorem find_pid (member : process ∈ host.processes) :
    (host.processes.find? fun other => other.pid == process.pid) = some process := by
  cases found : host.processes.find? fun other => other.pid == process.pid with
  | none =>
    have no := find?_eq_none.mp found process member
    exact absurd (beq_self_eq_true process.pid) no
  | some other =>
    have same := find?_some found
    rw [same_pid member (mem_of_find?_eq_some found) (beq_iff_eq.mp same).symm]

theorem mem_signals {call : Target × Signal} {target : Target}
    (made : call ∈ signals system target) : call.1 = target := by
  rw [signals] at made
  split at made
  · rcases mem_cons.mp made with rfl | made
    · rfl
    · rw [mem_singleton.mp made]
  · rw [mem_singleton.mp made]

theorem signals_first (target : Target) : (target, Signal.sigterm) ∈ signals system target := by
  rw [signals]
  split <;> exact mem_cons_self ..

def target (process : Process) : Target :=
  if process.pgid = process.pid then .group process.pgid else .process process.pid

theorem target_reaches (process : Process) : (target process).reaches process := by
  rw [target]
  split <;> rfl

theorem terminate_outside (member : process ∈ host.processes) (outside : process.pgid ≠ host.ownGroup) :
    terminateProcessGroup host system process.pid = signals system (target process) := by
  have other : process.pid ≠ host.own := fun same => outside (host.grouped process member same)
  rw [terminateProcessGroup, if_neg other, find_pid member]
  dsimp only
  rw [if_neg outside, target]
  split <;> rfl

theorem terminate_own (member : process ∈ host.processes) (own : process.pgid = host.ownGroup) :
    terminateProcessGroup host system process.pid = [] := by
  rw [terminateProcessGroup, find_pid member]
  dsimp only
  rw [if_pos own, ite_self]

/-- The calls are those for the processes outside of the agent's group that resemble the server. -/
theorem mem_terminate {call : Target × Signal} :
    call ∈ terminateStdioServers host system server ↔ ∃ process ∈ host.processes,
      Resembles server process ∧ process.pgid ≠ host.ownGroup ∧
        call ∈ signals system (target process) := by
  rw [terminateStdioServers]
  constructor
  · intro made
    split at made
    · cases made
    · rename_i named
      rcases mem_flatMap.mp made with ⟨⟨pid, text⟩, listed, made⟩
      obtain ⟨process, member, rfl, shown, rfl⟩ := mem_processTable listed
      dsimp only at made
      split at made
      · rename_i found
        by_cases own : process.pgid = host.ownGroup
        · rw [terminate_own member own] at made
          cases made
        · rw [terminate_outside member own] at made
          exact ⟨process, member, ⟨named, shown, found⟩, own, made⟩
      · cases made
  · rintro ⟨process, member, ⟨named, shown, found⟩, outside, made⟩
    rw [if_neg named]
    refine mem_flatMap.mpr ⟨_, processTable_mem member shown, ?_⟩
    dsimp only
    rw [if_pos found, terminate_outside member outside]
    exact made

theorem target_outside {other : Process} (member : process ∈ host.processes)
    (another : other ∈ host.processes) (outside : process.pgid ≠ host.ownGroup)
    (reached : (target process).reaches other) : other.pgid ≠ host.ownGroup := by
  rw [target] at reached
  split at reached
  · have same : other.pgid = process.pgid := reached
    rwa [same]
  · have same : other.pid = process.pid := reached
    rwa [same_pid another member same]

theorem target_intended {other : Process} (member : process ∈ host.processes)
    (another : other ∈ host.processes) (intended : Intended host server process)
    (reached : (target process).reaches other) : Intended host server other := by
  rw [target] at reached
  split at reached
  · rename_i leads
    have same : other.pgid = process.pgid := reached
    rcases intended with runs | ⟨leader, here, own, grouped, runs⟩
    · exact .inr ⟨process, member, leads.symm, same, runs⟩
    · exact .inr ⟨leader, here, own, same.trans grouped, runs⟩
  · have same : other.pid = process.pid := reached
    rwa [same_pid another member same]

/-- A server `sh -x`, and an editor on a file `push -xy`. -/
def editor : Process := ⟨7, 7, [['v', 'i'], ['p', 'u', 's', 'h', ' ', '-', 'x', 'y']]⟩

def desktop : Host where
  processes := [⟨1, 1, [['l']]⟩, editor]
  own := 1
  ownGroup := 1
  distinct := by decide
  grouped := by decide

end SourceLens.StdioServers
