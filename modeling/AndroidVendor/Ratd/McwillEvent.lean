import Mathlib.Algebra.Ring.Int.Defs
import Mathlib.Data.List.FinRange
import AndroidVendor.Lib.LinkedRing
import AndroidVendor.Lib.Machine

/-!
# The event library of ratd

`mcwill_event.c`: a table of watched descriptors, a list of timers and a list of events that are
due, and the loop's pass over the latter. The lists run through the events themselves.

## Conventions

* An operation gives `none` where the code goes through a null link or out of a descriptor set, or
  where its walk along the timer list never ends. There are `events + 2` nodes with the two
  sentinels: a walk of more steps has come back to a node that it has seen.
* A callback is known by what it calls; whether `func` is set is all that is kept of it. The
  arguments it is given (`param` and `netType`) and the name of an event are left out.
* `turns` and `deleted` are history variables: the events that `firePending` has come to, and those
  that `mcwill_event_del` was called for.
-/

namespace AndroidVendor.Ratd

open LinkedRing

/-- `MAX_FD_EVENTS`. -/
abbrev maxFdEvents : ℕ := 15

/-- `FD_SETSIZE`. -/
def fdSetSize : ℤ := 1024

structure Timeval where
  sec : ℤ
  usec : ℤ
  deriving DecidableEq, Repr

/-- `timercmp(a, b, <)`. -/
def Timeval.lt (a b : Timeval) : Bool :=
  if a.sec = b.sec then a.usec < b.usec else a.sec < b.sec

/-- `timeradd`. -/
def Timeval.add (a b : Timeval) : Timeval :=
  if 1000000 ≤ a.usec + b.usec then ⟨a.sec + b.sec + 1, a.usec + b.usec - 1000000⟩
  else ⟨a.sec + b.sec, a.usec + b.usec⟩

/-- What a link points to: one of the two sentinels or an event of the program. -/
inductive Addr
  | timerList
  | pendingList
  | event (n : ℕ)
  deriving DecidableEq, Repr

/-- `struct mcwill_event` without its links. -/
structure Event where
  fd : ℤ
  index : ℤ
  persist : Bool
  timeout : Timeval
  func : Bool
  deriving DecidableEq, Repr

/-- A turn of the loop of `firePending`; `deleted` where `mcwill_event_del` was called before. -/
structure Turn where
  ev : Addr
  called : Bool
  deleted : Bool
  deriving DecidableEq, Repr

namespace McwillEvent

structure State where
  links : Links Addr
  ev : Addr → Event
  events : ℕ
  watchTable : Fin maxFdEvents → Option ℕ
  readFds : ℤ → Bool
  nfds : ℤ
  deleted : List ℕ
  turns : List Turn

/-- An event as `init_list` leaves it. -/
def sentinel : Event where
  fd := -1
  index := 0
  persist := false
  timeout := ⟨0, 0⟩
  func := false

/-- After `mcwill_event_init`, with the events `ev`, none of them in a list. -/
def State.init (events : ℕ) (ev : ℕ → Event) : State where
  links :=
    { next := fun
        | .event _ => none
        | a => some a
      prev := fun
        | .event _ => none
        | a => some a }
  ev := fun
    | .event n => ev n
    | _ => sentinel
  events := events
  watchTable := fun _ => none
  readFds := fun _ => false
  nfds := 0
  deleted := []
  turns := []

def State.fd (s : State) (e : ℕ) : ℤ := (s.ev (.event e)).fd

def State.index (s : State) (e : ℕ) : ℤ := (s.ev (.event e)).index

def State.func (s : State) (e : ℕ) : Bool := (s.ev (.event e)).func

def State.setEv (s : State) (e : ℕ) (v : Event) : State :=
  { s with ev := Function.update s.ev (.event e) v }

def State.addToList (s : State) (e : ℕ) (a : Addr) : Option State :=
  (s.links.insertBefore (.event e) a).map fun links => { s with links := links }

/-! ### The watch table -/

/-- `FD_SET`, `FD_CLR` and `FD_ISSET` are defined. -/
def ValidFd (fd : ℤ) : Prop := 0 ≤ fd ∧ fd < fdSetSize

instance (fd : ℤ) : Decidable (ValidFd fd) := inferInstanceAs (Decidable (_ ∧ _))

/-- The loop of `removeWatch`: the greatest descriptor in the table, and 0 at least. -/
def State.maxFd (s : State) : ℤ :=
  (List.finRange maxFdEvents).foldl (fun n i =>
    match s.watchTable i with
    | some e => if n < s.fd e then s.fd e else n
    | none => n) 0

/-- The assignments of `removeWatch` before `g_nfds`. -/
def State.unwatch (s : State) (e : ℕ) (i : Fin maxFdEvents) : State :=
  { s.setEv e { s.ev (.event e) with index := -1 } with
    watchTable := Function.update s.watchTable i none
    readFds := Function.update s.readFds (s.fd e) false }

def State.removeWatch (s : State) (e : ℕ) (i : Fin maxFdEvents) : Option State :=
  if ValidFd (s.fd e) then
    if s.fd e + 1 = s.nfds then some { s.unwatch e i with nfds := (s.unwatch e i).maxFd + 1 }
    else some (s.unwatch e i)
  else none

/-- Where the loop of `mcwill_event_add` breaks: a slot that is free, or has the descriptor. -/
def State.Takes (s : State) (e : ℕ) (i : Fin maxFdEvents) : Bool :=
  match s.watchTable i with
  | none => true
  | some f => s.fd f == s.fd e

/-- `mcwill_event_add`. -/
def State.eventAdd (s : State) (e : ℕ) : Option State :=
  match (List.finRange maxFdEvents).find? (s.Takes e) with
  | none => some s
  | some i =>
    let s' := s.setEv e { s.ev (.event e) with index := i.val }
    match s.watchTable i with
    | none =>
      if ValidFd (s.fd e) then
        some { s' with
          watchTable := Function.update s.watchTable i (some e)
          readFds := Function.update s.readFds (s.fd e) true
          nfds := if s.nfds ≤ s.fd e then s.fd e + 1 else s.nfds }
      else none
    | some _ => some s'

/-- The slot that `ev->index` names, unless `mcwill_event_del` takes the index for invalid. -/
def State.slotOf (s : State) (e : ℕ) : Option (Fin maxFdEvents) :=
  if h : 0 ≤ s.index e ∧ s.index e < maxFdEvents ∧ ¬ (s.fd e = 0 ∧ s.index e = 0) then
    some ⟨(s.index e).toNat, by omega⟩
  else none

/-- `mcwill_event_del`. -/
def State.eventDel (s : State) (e : ℕ) : Option State :=
  let s' := { s with deleted := s.deleted ++ [e] }
  match s.slotOf e with
  | none => some s'
  | some i => s'.removeWatch e i

/-- `processReadReadies`, the slots from which the loop goes on given as a list. -/
def State.readReadies (rfds : ℤ → Bool) : List (Fin maxFdEvents) → ℤ → State → Option State
  | [], _, s => some s
  | i :: is, n, s =>
    if n ≤ 0 then some s
    else
      match s.watchTable i with
      | none => s.readReadies rfds is n
      | some e =>
        if ¬ ValidFd (s.fd e) then none
        else if rfds (s.fd e) then
          (s.addToList e .pendingList).bind fun s' =>
            if (s'.ev (.event e)).persist then s'.readReadies rfds is (n - 1)
            else (s'.removeWatch e i).bind (State.readReadies rfds is (n - 1))
        else s.readReadies rfds is n

def State.processReadReadies (s : State) (rfds : ℤ → Bool) (n : ℤ) : Option State :=
  s.readReadies rfds (List.finRange maxFdEvents) n

/-! ### Timers -/

/-- `mcwill_event_set`. It forgets the links of the event and does not unlink it. -/
def State.eventSet (s : State) (e : ℕ) (fd : ℤ) (persist func : Bool) : State :=
  { s.setEv e { fd := fd, index := -1, persist := persist, timeout := ⟨0, 0⟩, func := func } with
    links := s.links.clear (.event e) }

/-- The search of `mcwill_timer_add`: the first node that is not due before `timeout`. -/
def State.search (s : State) (timeout : Timeval) : ℕ → Option Addr → Option Addr
  | 0, _ => none
  | _ + 1, none => none
  | n + 1, some a =>
    if (s.ev a).timeout.lt timeout ∧ a ≠ .timerList then s.search timeout n (s.links.next a)
    else some a

/-- `mcwill_timer_add`; `tv` is `none` for `NULL`, and `now` is the clock. -/
def State.timerAdd (s : State) (e : ℕ) (tv : Option Timeval) (now : Timeval) : Option State :=
  match tv with
  | none => some s
  | some tv =>
    let s' := s.setEv e { s.ev (.event e) with fd := -1, timeout := now.add tv }
    (s'.search (now.add tv) (s.events + 2) (s.links.next .timerList)).bind (s'.addToList e)

/-- The loop of `processTimeouts` at `tev`. -/
def State.processFrom (now : Timeval) : ℕ → Option Addr → State → Option State
  | 0, _, _ => none
  | _ + 1, none, _ => none
  | n + 1, some a, s =>
    if a ≠ .timerList ∧ (s.ev a).timeout.lt now then
      ((s.links.unlink a).insertBefore a .pendingList).bind fun links =>
        State.processFrom now n (s.links.next a) { s with links := links }
    else some s

/-- `processTimeouts`; `now` is the clock. -/
def State.processTimeouts (s : State) (now : Timeval) : Option State :=
  State.processFrom now (s.events + 2) (s.links.next .timerList) s

/-! ### Callbacks -/

/-- A call that a callback may make. -/
inductive Call
  | set (e : ℕ) (fd : ℤ) (persist func : Bool)
  | add (e : ℕ)
  | del (e : ℕ)
  | timerAdd (e : ℕ) (tv : Option Timeval) (now : Timeval)
  deriving DecidableEq, Repr

def Call.step : Call → State → Option State
  | .set e fd persist func, s => some (s.eventSet e fd persist func)
  | .add e, s => s.eventAdd e
  | .del e, s => s.eventDel e
  | .timerAdd e tv now, s => s.timerAdd e tv now

/-- The event was deleted. -/
def State.isDeleted (s : State) : Addr → Bool
  | .event e => e ∈ s.deleted
  | _ => false

/-- What the loop of `firePending` does with `a` before it calls `func`. -/
def State.turn (s : State) (a : Addr) : State :=
  { s with
    links := s.links.unlink a
    turns := s.turns ++ [⟨a, (s.ev a).func, s.isDeleted a⟩] }

/-- The loop of `firePending` at `ev`; the callback of the `k`-th turn makes the calls `script
k`. -/
def fireFrom (script : ℕ → List Call) : ℕ → ℕ → Option Addr → State → Option State
  | 0, _, _, _ => none
  | _ + 1, _, none, _ => none
  | fuel + 1, k, some a, s =>
    if a = .pendingList then some s
    else
      (Machine.run Call.step (if (s.ev a).func then script k else []) (s.turn a)).bind
        (fireFrom script fuel (k + 1) (s.links.next a))

/-- Without the history. -/
def State.fresh (s : State) : State := { s with deleted := [], turns := [] }

def firePending (script : ℕ → List Call) (fuel : ℕ) (s : State) : Option State :=
  fireFrom script fuel 0 (s.links.next .pendingList) s.fresh

end McwillEvent

end AndroidVendor.Ratd
