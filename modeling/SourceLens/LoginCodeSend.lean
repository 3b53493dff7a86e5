import SourceLens.Library.ExpiringCache
import SourceLens.Library.PyText
import SourceLens.Library.TaskPool
import SourceLens.Library.Transition

/-! The limits on sending verification codes (`can_send` of `accounts/services/otp.py`), one
cache operation a step. -/

namespace SourceLens.LoginCodeSend

open ExpiringCache (Cache)
open Transition

abbrev Text := List Char

inductive Key
  | cooldown (email : Text)
  | daily (email : Text)
  | ip (address : Text)
  deriving DecidableEq

structure Settings where
  cooldownSeconds : Nat
  maxPerDay : Nat
  maxPerIpHour : Nat

/-- `_normalize_email`; `lower` is the case mapping of a text. -/
def normalizeEmail (lower : Text → Text) (email : Text) : Text :=
  lower (PyText.strip PyText.isSpace email)

def Key.ttl : Key → Nat
  | .ip _ => 3600
  | _ => 86400

def Settings.limit (settings : Settings) : Key → Nat
  | .ip _ => settings.maxPerIpHour
  | _ => settings.maxPerDay

/-- A count that a call has drawn, and from which counter of the key. -/
structure Ticket where
  key : Key
  life : Nat
  count : Nat
  deriving DecidableEq

/-- Where `_incr_with_ttl` stands. -/
inductive Phase
  | add
  | incr
  | set
  deriving DecidableEq, Repr

/-- A call that has found no cooldown, with the counters it has still to draw from. -/
structure Call where
  email : Text
  ip : Option Text
  counters : List Key
  phase : Phase
  tickets : List Ticket
  deriving DecidableEq

def Call.keys (call : Call) : List Key := .daily call.email :: (call.ip.map Key.ip).toList

/-- A call that returned true, with the counters of its email and address that were alive. -/
structure Allowed where
  email : Text
  ip : Option Text
  time : Nat
  tickets : List Ticket
  lives : List (Key × Nat)
  deriving DecidableEq

structure World where
  now : Nat
  cache : Cache Key Nat
  /-- How many counters a key has had: not stored. -/
  lives : Key → Nat
  calls : List Call
  allowed : List Allowed

namespace World

variable (world : World)

def get (key : Key) : Option Nat := ExpiringCache.get world.cache world.now key

/-- `cache.set`: a new counter where none is alive. -/
def set (key : Key) (value deadline : Nat) : World :=
  { world with
    cache := ExpiringCache.set world.cache key value deadline
    lives := if world.get key = none then Function.update world.lives key (world.lives key + 1)
      else world.lives }

end World

/-- After a count: refused above the limit, else on to the next counter. -/
def Call.counted (settings : Settings) (call : Call) (key : Key) (rest : List Key)
    (ticket : Ticket) : Option Call :=
  if settings.limit key < ticket.count then none
  else some { call with counters := rest, phase := .add, tickets := call.tickets ++ [ticket] }

/-- One cache operation of a call: the world after it, and where the call stands. -/
def Call.advance (settings : Settings) (world : World) (call : Call) : World × Option Call :=
  match call.counters, call.phase with
  | key :: rest, .add =>
    if world.get key = none then
      let next := world.set key 1 (world.now + key.ttl)
      (next, call.counted settings key rest ⟨key, next.lives key, 1⟩)
    else (world, some { call with phase := .incr })
  | key :: rest, .incr =>
    match world.cache key, world.get key with
    | some entry, some count =>
      let next := world.set key (count + 1) entry.deadline
      (next, call.counted settings key rest ⟨key, next.lives key, count + 1⟩)
    | _, _ => (world, some { call with phase := .set })
  | key :: rest, .set =>
    let next := world.set key 1 (world.now + key.ttl)
    (next, call.counted settings key rest ⟨key, next.lives key, 1⟩)
  | [], _ =>
    let alive := call.keys.filter fun key => (world.get key).isSome
    let next := world.set (.cooldown call.email) 1 (world.now + settings.cooldownSeconds)
    ({ next with
      allowed := world.allowed ++ [⟨call.email, call.ip, world.now, call.tickets,
        alive.map fun key => (key, world.lives key)⟩] }, none)

def canSend (lower : Text → Text) (world : World) (email : Text) (ip : Option Text) : World :=
  let email := normalizeEmail lower email
  let ip := ip.filter (· ≠ [])
  if (world.get (.cooldown email)).isSome then world
  else
    let call : Call := ⟨email, ip, [], .add, []⟩
    { world with calls := world.calls ++ [{ call with counters := call.keys }] }

inductive Action
  | wait (ticks : Nat)
  | canSend (email : Text) (ip : Option Text)
  | advance (index : Nat)

def step (settings : Settings) (lower : Text → Text) (world : World) : Action → Option World
  | .wait ticks => some { world with now := world.now + ticks }
  | .canSend email ip => some (canSend lower world email ip)
  | .advance index =>
    (world.calls[index]?).map fun call =>
      let effect := call.advance settings world
      { effect.1 with calls := TaskPool.settle world.calls index effect.2 }

def World.initial : World := ⟨0, ExpiringCache.empty, fun _ => 0, [], []⟩

structure Limited (settings : Settings) (allowed : List Allowed) : Prop where
  apart : allowed.Pairwise fun earlier later =>
    earlier.email = later.email → earlier.time + settings.cooldownSeconds ≤ later.time
  counted : ∀ key life, (allowed.filter fun call => decide ((key, life) ∈ call.lives)).length ≤
    settings.limit key

/-- The last write of a call finds no cooldown, and of the counters it has drawn from those
that are alive are still the same; the fallback of a count finds no counter. -/
def Call.Meets (world : World) (call : Call) : Prop :=
  match call.counters, call.phase with
  | key :: _, .set => world.get key = none
  | [], _ => world.get (.cooldown call.email) = none ∧
      ∀ ticket ∈ call.tickets, (world.get ticket.key).isSome = true →
        ticket.life = world.lives ticket.key
  | _, _ => True

def Orderly (world : World) : Action → Prop
  | .advance index => ∀ call ∈ world.calls[index]?, call.Meets world
  | _ => True

end SourceLens.LoginCodeSend
