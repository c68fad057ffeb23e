import Thinker.Clock
import Thinker.Transition

/-!
# The timer list

The timers of `sched.c` : a singly linked list in the order of their 32 bit wake times, from
`timer_list` to `sentinel_timer`. The sentinel is always half of the clock's range behind
`periodic_timer`, so it stops every walk.

The times in the list form a `TimeWindow` from the wake time of the first timer on. A late
timer that is tolerated is put behind the first timer even if it is due before it, which breaks
the order.
-/

namespace Thinker

/-- The timers of `sched.c`, and `n` others. -/
inductive Timer (n : ℕ) where
  | periodic
  | sentinel
  | deleted
  | user (k : Fin n)
  deriving DecidableEq

/-- `SchedStatus`, the fields of the timers, and `too_close_c`. `active` is not in the code :
the timers that were added and neither removed, finished nor reset since. -/
structure SchedStatus (n : ℕ) where
  next : Timer n → Option (Timer n)
  waketime : Timer n → BitVec 32
  timerList : Timer n
  lastInsert : Timer n
  tooCloseC : ℕ
  shutdownStatus : Bool
  active : Fin n → Bool

/-- `timer_from_us`. -/
def timerFromUs (clockFreq us : BitVec 32) : BitVec 32 :=
  us * (clockFreq / 1000000)

namespace SchedStatus

variable {n : ℕ}

/-- The statically initialised state. -/
def start (n : ℕ) : SchedStatus n where
  next := fun t => if t = .periodic then some .sentinel else none
  waketime := fun t => if t = .sentinel then 0x80000000 else 0
  timerList := .periodic
  lastInsert := .periodic
  tooCloseC := 0
  shutdownStatus := false
  active := fun _ => false

/-- More steps than any walk over the list can take. -/
def fuel (n : ℕ) : ℕ := n + 5

/-- `insert_timer`. -/
def insertTimer (s : SchedStatus n) (pos t : Timer n) (waketime : BitVec 32) :
    Option (SchedStatus n) :=
  (walkInsert (fun pos => timerIsBefore waketime (s.waketime pos)) t (fuel n) pos s.next).map
    fun next => { s with next := next }

/-- `sched_timer_reset`. -/
def schedTimerReset (s : SchedStatus n) : SchedStatus n :=
  let next := Function.update (Function.update s.next .deleted (some .periodic))
    .periodic (some .sentinel)
  { s with
    timerList := .deleted
    waketime := Function.update s.waketime .deleted (s.waketime .periodic)
    next := next
    lastInsert := .periodic
    active := fun _ => false }

/-- `run_shutdown`. -/
def runShutdown (s : SchedStatus n) : SchedStatus n :=
  { s.schedTimerReset with shutdownStatus := true }

/-- The timer is active from now on. -/
def activate (k : Fin n) (s : SchedStatus n) : SchedStatus n :=
  { s with active := Function.update s.active k true }

/-- Put the timer in front of the list, behind the deleted timer. -/
def addFront (s : SchedStatus n) (k : Fin n) (waketime : BitVec 32) : SchedStatus n :=
  let tl := s.timerList
  let next := Function.update s.next (.user k)
    (if tl = .deleted then s.next .deleted else some tl)
  { s with
    next := Function.update next .deleted (some (.user k))
    waketime := Function.update s.waketime .deleted waketime
    timerList := .deleted }

/-- `sched_add_timer`, with two readings of the clock. The sum `timer_read_time()+0.001` is
cut off to the reading. -/
def schedAddTimer (s : SchedStatus n) (k : Fin n) (now now' : BitVec 32) :
    Option (SchedStatus n) :=
  let waketime := s.waketime (.user k)
  let tl := s.timerList
  if timerIsBefore waketime (s.waketime tl) then
    if timerIsBefore waketime now then
      let s := { s with tooCloseC := s.tooCloseC + 1 }
      if s.tooCloseC ≥ 3 then
        if s.shutdownStatus then some ((s.addFront k waketime).activate k)
        else some s.runShutdown
      else
        let s := { s with waketime := Function.update s.waketime (.user k) now' }
        (s.insertTimer tl (.user k) now').map (activate k)
    else some ((s.addFront k waketime).activate k)
  else (s.insertTimer tl (.user k) waketime).map (activate k)

/-- `sched_del_timer`. -/
def schedDelTimer (s : SchedStatus n) (k : Fin n) : Option (SchedStatus n) :=
  let unlinked :=
    if s.timerList = .user k then
      some { s with
        waketime := Function.update s.waketime .deleted (s.waketime (.user k))
        next := Function.update s.next .deleted (s.next (.user k))
        timerList := .deleted }
    else
      (walkRemove (.user k) (fuel n) s.timerList s.next).map fun next => { s with next := next }
  unlinked.map fun s => { s with
    lastInsert := if s.lastInsert = .user k then .periodic else s.lastInsert
    active := Function.update s.active k false }

/-- What the callback of a timer does, and whether it asks to be called again. `res` is what
the callback of a user timer adds to its wake time if it does, and `sentinel_event` does not
return. -/
def timerFunc (clockFreq : BitVec 32) (res : Option (BitVec 32)) (s : SchedStatus n) :
    Timer n → Option (Bool × SchedStatus n)
  | .periodic =>
    let waketime := s.waketime .periodic + timerFromUs clockFreq 100000
    let waketimes := Function.update (Function.update s.waketime .periodic waketime)
      .sentinel (waketime + 0x80000000)
    some (true, { s with waketime := waketimes })
  | .sentinel => none
  | .deleted => some (false, s)
  | .user k =>
    match res with
    | none => some (false, { s with active := Function.update s.active k false })
    | some d =>
      let waketimes := Function.update s.waketime (.user k) (s.waketime (.user k) + d)
      some (true, { s with waketime := waketimes })

/-- Update `timer_list`, rescheduling the current timer if necessary. -/
def updateTimerList (s : SchedStatus n) (t : Timer n) (reschedule : Bool) :
    Option (SchedStatus n × BitVec 32) := do
  let tnext ← s.next t
  let updatedWaketime := s.waketime t
  if !reschedule then
    let lastInsert := if s.lastInsert = t then tnext else s.lastInsert
    return ({ s with timerList := tnext, lastInsert := lastInsert }, s.waketime tnext)
  else if !timerIsBefore updatedWaketime (s.waketime tnext) then
    let s := { s with timerList := tnext }
    let pos := if timerIsBefore updatedWaketime (s.waketime s.lastInsert) then s.timerList
      else s.lastInsert
    let s ← s.insertTimer pos t updatedWaketime
    return ({ s with lastInsert := t }, s.waketime tnext)
  else return (s, updatedWaketime)

/-- `sched_timer_dispatch`, with the time that it returns. -/
def schedTimerDispatch (clockFreq : BitVec 32) (res : Option (BitVec 32)) (s : SchedStatus n) :
    Option (SchedStatus n × Option (BitVec 32)) :=
  let t := s.timerList
  match timerFunc clockFreq res s t with
  | none => some (s.runShutdown, none)
  | some (reschedule, s) =>
    (s.updateTimerList t reschedule).map fun (s, nextWaketime) => (s, some nextWaketime)

end SchedStatus

/-- What happens to the timers. -/
inductive SchedEvent (n : ℕ) where
  /-- `sched_add_timer` of a timer with this wake time, and two readings of the clock. -/
  | addTimer (k : Fin n) (waketime now now' : BitVec 32)
  | delTimer (k : Fin n)
  /-- `sched_timer_dispatch`, and what the callback of a user timer adds to its wake time. -/
  | dispatch (res : Option (BitVec 32))
  | shutdown
  | clearShutdown

namespace SchedEvent

variable {n : ℕ}

/-- A timer is added only while it is not active, and no callback asks to be called again half
of the clock's range later or more. -/
def Allowed (s : SchedStatus n) : SchedEvent n → Prop
  | .addTimer k _ _ _ => s.active k = false
  | .dispatch (some d) => d.toNat < 2 ^ 31
  | .clearShutdown => s.shutdownStatus = true
  | _ => True

/-- A late timer that is tolerated gets a wake time that is not before the first timer, and a
timer that is put in front of the list is before the periodic and all active timers. -/
def InTime (s : SchedStatus n) : SchedEvent n → Prop
  | .addTimer _ waketime now now' =>
    timerIsBefore waketime (s.waketime s.timerList) = true →
      if timerIsBefore waketime now = true ∧ s.tooCloseC < 2 then
        timerIsBefore now' (s.waketime s.timerList) = false
      else timerIsBefore waketime now = true ∧ s.shutdownStatus = false ∨
        timerIsBefore waketime (s.waketime .periodic) = true ∧
          ∀ j, s.active j = true → timerIsBefore waketime (s.waketime (.user j)) = true
  | _ => True

instance (s : SchedStatus n) : DecidablePred (Allowed s)
  | .addTimer _ _ _ _ => inferInstanceAs (Decidable (_ = _))
  | .delTimer _ => inferInstanceAs (Decidable True)
  | .dispatch none => inferInstanceAs (Decidable True)
  | .dispatch (some _) => inferInstanceAs (Decidable (_ < _))
  | .shutdown => inferInstanceAs (Decidable True)
  | .clearShutdown => inferInstanceAs (Decidable (_ = _))

instance (s : SchedStatus n) : DecidablePred (InTime s)
  | .addTimer _ _ _ _ => inferInstanceAs (Decidable (_ → _))
  | .delTimer _ => inferInstanceAs (Decidable True)
  | .dispatch _ => inferInstanceAs (Decidable True)
  | .shutdown => inferInstanceAs (Decidable True)
  | .clearShutdown => inferInstanceAs (Decidable True)

end SchedEvent

/-- The scheduler. -/
def sched (n : ℕ) (clockFreq : BitVec 32) : System (SchedStatus n) (SchedEvent n) where
  init s := s = SchedStatus.start n
  next s a :=
    if a.Allowed s then
      match a with
      | .addTimer k waketime now now' =>
        let s := { s with waketime := Function.update s.waketime (.user k) waketime }
        s.schedAddTimer k now now'
      | .delTimer k => s.schedDelTimer k
      | .dispatch res => (s.schedTimerDispatch clockFreq res).map Prod.fst
      | .shutdown => some s.runShutdown
      | .clearShutdown => some { s with shutdownStatus := false }
    else none

end Thinker
