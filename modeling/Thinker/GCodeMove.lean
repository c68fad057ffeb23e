import Thinker.Move
import Thinker.Transition
import Thinker.Raises
import Mathlib.Data.List.Infix

/-!
# The position of g-code moves

`GCodeMove` of `gcode_move.py`. Its `last_position` is where the next move starts. It
should always be the target of the last call of `move_with_transform`, or what
`reset_last_position` read after that, which the model keeps in `issued`.

Every handler keeps this but `cmd_G1` : while `stop_heating` is set it may leave out the
move after it has changed `last_position`, and then the next move makes up for it. A
handler that raises an error may leave any position behind, but the event
`gcode:command_error` resets it.
-/

set_option linter.unusedSectionVars false

namespace Thinker

variable {K : Type} [Field K] [LinearOrder K] [IsStrictOrderedRing K]

/-- `sub in s` of strings. -/
def strIn (sub s : String) : Bool := decide (sub.toList <:+: s.toList)

/-- `GCodeCommand` : the line and its parameters. -/
structure Gcmd where
  commandline : String
  params : String → Option String

/-- The parsers `float` and `int`; `none` stands for an exception. -/
structure Parsers (K : Type) where
  float : String → Option K
  int : String → Option ℤ

/-- The last position that was asked for or read. -/
inductive Issued (K : Type)
  /-- A call of `move_with_transform`. -/
  | move (target : Coord K) (speed : K)
  /-- `reset_last_position` read this position. -/
  | reset (position : Coord K)

/-- The target of the move, or the position read. -/
def Issued.position : Issued K → Coord K
  | move target _ => target
  | reset position => position

/-- An entry of `saved_states`. -/
structure SavedState (K : Type) where
  absoluteCoord : Bool
  absoluteExtrude : Bool
  basePosition : Coord K
  lastPosition : Coord K
  homingPosition : Coord K
  speed : K
  speedFactor : K
  extrudeFactor : K

/-- The attributes of `GCodeMove`, and `issued`. -/
structure GCodeMove (K : Type) where
  isPrinterReady : Bool
  stopHeating : ℤ
  absoluteCoord : Bool
  absoluteExtrude : Bool
  basePosition : Coord K
  lastPosition : Coord K
  homingPosition : Coord K
  speed : K
  speedFactor : K
  extrudeFactor : K
  savedStates : String → Option (SavedState K)
  issued : Issued K

/-! ## Parameters of a command -/

namespace Gcmd

variable (ps : Parsers K) (gcmd : Gcmd)

/-- The word of `cmd_G1` for an axis : missing, not a number, or a number. -/
def word (axis : String) : Option (Option K) := (gcmd.params axis).map ps.float

/-- `get` with a parser and no bounds, `none` for a parameter that is missing. -/
def getParsed {α : Type} (parser : String → Option α) (name : String) :
    Except String (Option α) :=
  match gcmd.params name with
  | none => .ok none
  | some w =>
    match parser w with
    | none => .error s!"Error on '{gcmd.commandline}': unable to parse {w}"
    | some v => .ok (some v)

/-- `get_float(name, default, above=0.)`. -/
def getFloatAbove (name : String) (default : K) : Except String K := do
  match ← gcmd.getParsed ps.float name with
  | none => return default
  | some v =>
    if v ≤ 0 then throw s!"Error on '{gcmd.commandline}': {name} must be above 0.0"
    return v

/-- `get_int(name, 0)`. -/
def getInt (name : String) : Except String ℤ := do
  return (← gcmd.getParsed ps.int name).getD 0

end Gcmd

namespace GCodeMove

/-- A handler returns, or raises an error with the state it left. -/
abbrev Handler (K α : Type) := Except (String × GCodeMove K) α

/-- A parameter that raises an error in some state. -/
def param {α : Type} (s : GCodeMove K) (x : Except String α) : Handler K α :=
  x.mapError fun e => (e, s)

/-- `reset_last_position`, with the position that `position_with_transform` returns. -/
def resetLastPosition (s : GCodeMove K) (position : Coord K) : GCodeMove K :=
  if s.isPrinterReady then { s with lastPosition := position, issued := .reset position } else s

/-- `move_with_transform(self.last_position, speed)`, which may raise an error. -/
def moveWithTransform (s : GCodeMove K) (speed : K) (raises : Option String) : Handler K (GCodeMove K) :=
  let s := { s with issued := .move s.lastPosition speed }
  match raises with
  | none => .ok s
  | some e => .error (e, s)

/-! ## Handlers -/

/-- A word of `cmd_G1` with its number : relative to the last position, or to the base. -/
def setCoord (s : GCodeMove K) (pos : Fin 4) (relative : Bool) (v : K) : GCodeMove K :=
  let target := if relative then s.lastPosition pos + v else v + s.basePosition pos
  { s with lastPosition := Function.update s.lastPosition pos target }

/-- One word of `cmd_G1`, if it is there. -/
def moveWord (ps : Parsers K) (gcmd : Gcmd) (axis : String) (s : GCodeMove K)
    (f : GCodeMove K → K → Handler K (GCodeMove K)) : Handler K (GCodeMove K) :=
  match gcmd.word ps axis with
  | none => .ok s
  | some none => .error (s!"Unable to parse move '{gcmd.commandline}'", s)
  | some (some v) => f s v

/-- The words of `cmd_G1`. -/
def parseG1 (ps : Parsers K) (gcmd : Gcmd) (s : GCodeMove K) : Handler K (GCodeMove K) := do
  let xyz (pos : Fin 4) (s : GCodeMove K) (v : K) : Handler K (GCodeMove K) :=
    .ok (s.setCoord pos (!s.absoluteCoord) v)
  let s ← moveWord ps gcmd "X" s (xyz 0)
  let s ← moveWord ps gcmd "Y" s (xyz 1)
  let s ← moveWord ps gcmd "Z" s (xyz 2)
  let s ← moveWord ps gcmd "E" s fun s v =>
    .ok (s.setCoord 3 (!s.absoluteCoord || !s.absoluteExtrude) (v * s.extrudeFactor))
  moveWord ps gcmd "F" s fun s gcodeSpeed =>
    if gcodeSpeed ≤ 0 then .error (s!"Invalid speed in '{gcmd.commandline}'", s)
    else .ok { s with speed := gcodeSpeed * s.speedFactor }

/-- `cmd_G1`. -/
def cmdG1 (ps : Parsers K) (gcmd : Gcmd) (raises : Option String) (s : GCodeMove K) :
    Handler K (GCodeMove K) := do
  let s ← parseG1 ps gcmd s
  if s.stopHeating = 0 then
    s.moveWithTransform s.speed raises
  else if (gcmd.params "Z").isSome || (gcmd.params "240").isSome || (gcmd.params "200").isSome then
    s.moveWithTransform s.speed raises
  else
    match gcmd.params "X" with
    | none => .ok s
    | some x =>
      if strIn "240" x || strIn "200" x then s.moveWithTransform s.speed raises else .ok s

/-- `cmd_G92`. -/
def cmdG92 (ps : Parsers K) (gcmd : Gcmd) (s : GCodeMove K) : Handler K (GCodeMove K) := do
  let x ← s.param (gcmd.getParsed ps.float "X")
  let y ← s.param (gcmd.getParsed ps.float "Y")
  let z ← s.param (gcmd.getParsed ps.float "Z")
  let e ← s.param (gcmd.getParsed ps.float "E")
  let offsets : Fin 4 → Option K := ![x, y, z, e.map (· * s.extrudeFactor)]
  if offsets = ![none, none, none, none] then
    .ok { s with basePosition := s.lastPosition }
  else
    .ok { s with basePosition := fun i =>
      match offsets i with
      | none => s.basePosition i
      | some offset => s.lastPosition i - offset }

/-- `_get_gcode_speed`. -/
def getGcodeSpeed (s : GCodeMove K) : K := s.speed / s.speedFactor

/-- `cmd_M220`. -/
def cmdM220 (ps : Parsers K) (gcmd : Gcmd) (s : GCodeMove K) : Handler K (GCodeMove K) := do
  let percent ← s.param (gcmd.getFloatAbove ps "S" 100)
  let value := percent / (60 * 100)
  .ok { s with speed := s.getGcodeSpeed * value, speedFactor := value }

/-- `cmd_M221`. -/
def cmdM221 (ps : Parsers K) (gcmd : Gcmd) (s : GCodeMove K) : Handler K (GCodeMove K) := do
  let percent ← s.param (gcmd.getFloatAbove ps "S" 100)
  let newExtrudeFactor := percent / 100
  let lastEPos := s.lastPosition 3
  let eValue := (lastEPos - s.basePosition 3) / s.extrudeFactor
  .ok { s with
    basePosition := Function.update s.basePosition 3 (lastEPos - eValue * newExtrudeFactor)
    extrudeFactor := newExtrudeFactor }

/-- One axis of `cmd_SET_GCODE_OFFSET` : the state and the distance the offset changes. -/
def setOffset (ps : Parsers K) (gcmd : Gcmd) (pos : Fin 4) (axis : String) (s : GCodeMove K) :
    Handler K (GCodeMove K × K) := do
  let offset ← s.param (gcmd.getParsed ps.float axis)
  let offset ← (match offset with
    | some v => .ok (some v)
    | none => do
      let adjust ← s.param (gcmd.getParsed ps.float (axis ++ "_ADJUST"))
      .ok (adjust.map (· + s.homingPosition pos)))
  match offset with
  | none => .ok (s, 0)
  | some offset =>
    let delta := offset - s.homingPosition pos
    .ok ({ s with
      basePosition := Function.update s.basePosition pos (s.basePosition pos + delta)
      homingPosition := Function.update s.homingPosition pos offset }, delta)

/-- `cmd_SET_GCODE_OFFSET`. -/
def cmdSetGcodeOffset (ps : Parsers K) (gcmd : Gcmd) (raises : Option String)
    (s : GCodeMove K) : Handler K (GCodeMove K) := do
  let (s, dx) ← s.setOffset ps gcmd 0 "X"
  let (s, dy) ← s.setOffset ps gcmd 1 "Y"
  let (s, dz) ← s.setOffset ps gcmd 2 "Z"
  let (s, de) ← s.setOffset ps gcmd 3 "E"
  let move ← s.param (gcmd.getInt ps "MOVE")
  if move = 0 then .ok s
  else
    let speed ← s.param (gcmd.getFloatAbove ps "MOVE_SPEED" s.speed)
    { s with lastPosition := s.lastPosition + ![dx, dy, dz, de] }.moveWithTransform speed raises

/-- `cmd_SAVE_GCODE_STATE`. -/
def cmdSaveGcodeState (gcmd : Gcmd) (s : GCodeMove K) : Handler K (GCodeMove K) :=
  let stateName := (gcmd.params "NAME").getD "default"
  .ok { s with savedStates := Function.update s.savedStates stateName (some
    { absoluteCoord := s.absoluteCoord, absoluteExtrude := s.absoluteExtrude
      basePosition := s.basePosition, lastPosition := s.lastPosition
      homingPosition := s.homingPosition, speed := s.speed, speedFactor := s.speedFactor
      extrudeFactor := s.extrudeFactor }) }

/-- `cmd_RESTORE_GCODE_STATE`. -/
def cmdRestoreGcodeState (ps : Parsers K) (gcmd : Gcmd) (raises : Option String)
    (s : GCodeMove K) : Handler K (GCodeMove K) := do
  let stateName := (gcmd.params "NAME").getD "default"
  match s.savedStates stateName with
  | none => .error ("Unknown g-code state: " ++ stateName, s)
  | some state =>
    let eDiff := s.lastPosition 3 - state.lastPosition 3
    let s := { s with
      absoluteCoord := state.absoluteCoord, absoluteExtrude := state.absoluteExtrude
      basePosition := Function.update state.basePosition 3 (state.basePosition 3 + eDiff)
      homingPosition := state.homingPosition, speed := state.speed
      speedFactor := state.speedFactor, extrudeFactor := state.extrudeFactor }
    let move ← s.param (gcmd.getInt ps "MOVE")
    if move = 0 then .ok s
    else
      let speed ← s.param (gcmd.getFloatAbove ps "MOVE_SPEED" s.speed)
      { s with lastPosition := fun i =>
          if i = 3 then s.lastPosition 3 else state.lastPosition i }.moveWithTransform speed raises

/-- The commands that `GCodeMove` handles. `raises` is the error of `move_with_transform`. -/
inductive Command
  | g1 (gcmd : Gcmd) (raises : Option String)
  | g20 | g21 | m82 | m83 | g90 | g91
  | g92 (gcmd : Gcmd)
  | m220 (gcmd : Gcmd)
  | m221 (gcmd : Gcmd)
  | setGcodeOffset (gcmd : Gcmd) (raises : Option String)
  | saveGcodeState (gcmd : Gcmd)
  | restoreGcodeState (gcmd : Gcmd) (raises : Option String)

/-- The handler of a command. -/
def handler (ps : Parsers K) : Command → GCodeMove K → Handler K (GCodeMove K)
  | .g1 gcmd raises, s => cmdG1 ps gcmd raises s
  | .g20, s => .error ("Machine does not support G20 (inches) command", s)
  | .g21, s => .ok s
  | .m82, s => .ok { s with absoluteExtrude := true }
  | .m83, s => .ok { s with absoluteExtrude := false }
  | .g90, s => .ok { s with absoluteCoord := true }
  | .g91, s => .ok { s with absoluteCoord := false }
  | .g92 gcmd, s => cmdG92 ps gcmd s
  | .m220 gcmd, s => cmdM220 ps gcmd s
  | .m221 gcmd, s => cmdM221 ps gcmd s
  | .setGcodeOffset gcmd raises, s => cmdSetGcodeOffset ps gcmd raises s
  | .saveGcodeState gcmd, s => cmdSaveGcodeState gcmd s
  | .restoreGcodeState gcmd raises, s => cmdRestoreGcodeState ps gcmd raises s

/-- `_process_commands` for one command : an error sends the event `gcode:command_error`, and
`position` is what the transform then returns. -/
def processCommand (ps : Parsers K) (cmd : Command) (position : Coord K) (s : GCodeMove K) :
    GCodeMove K :=
  match handler ps cmd s with
  | .ok s => s
  | .error (_, s) => s.resetLastPosition position

/-- What can happen to a `GCodeMove`. -/
inductive Event (K : Type)
  | command (cmd : Command) (position : Coord K)
  /-- `toolhead:set_position`, `toolhead:manual_move`, or the error of another command. -/
  | reset (position : Coord K)
  /-- `extruder:activate_extruder`. -/
  | activateExtruder (position : Coord K)
  /-- `homing:home_rails_end`. -/
  | homeRailsEnd (axes : List (Fin 4)) (position : Coord K)
  /-- A print is cancelled, or the flag is cleared. -/
  | setStopHeating (v : ℤ)
  /-- `klippy:shutdown`. -/
  | shutdown

/-- The state after an event. -/
def next (ps : Parsers K) (s : GCodeMove K) : Event K → Option (GCodeMove K)
  | .command cmd position =>
    -- after a shutdown the dispatcher has no handlers for these commands
    if s.isPrinterReady then some (processCommand ps cmd position s) else none
  | .reset position => some (s.resetLastPosition position)
  | .activateExtruder position =>
    let s := s.resetLastPosition position
    some { s with
      extrudeFactor := 1
      basePosition := Function.update s.basePosition 3 (s.lastPosition 3) }
  | .homeRailsEnd axes position =>
    let s := s.resetLastPosition position
    some { s with
      basePosition := fun i => if i ∈ axes then s.homingPosition i else s.basePosition i }
  | .setStopHeating v => some { s with stopHeating := v }
  | .shutdown => some { s with isPrinterReady := false }

/-- Runs from `_handle_ready`, which has read the position. -/
def system (ps : Parsers K) : System (GCodeMove K) (Event K) where
  init s := s.isPrinterReady = true ∧ ∃ position, s.lastPosition = position ∧
    s.issued = .reset position
  next := next ps

/-- While the printer is ready, the last position is the one asked for or read last. -/
def InStep (s : GCodeMove K) : Prop :=
  s.isPrinterReady = true → s.lastPosition = s.issued.position

/-! ## Handlers that keep the position -/

/-- What a handler may do to the position : nothing, or a move to where it leaves it. -/
def Follows (s s' : GCodeMove K) : Prop :=
  s'.isPrinterReady = s.isPrinterReady ∧
    ((s'.lastPosition = s.lastPosition ∧ s'.issued = s.issued) ∨
      s'.lastPosition = s'.issued.position)

/-- An error leaves the printer ready. -/
def StaysReady (s : GCodeMove K) (e : String × GCodeMove K) : Prop :=
  e.2.isPrinterReady = s.isPrinterReady

/-- What a handler does to the position : nothing, or a move to where it leaves it. -/
def Moves (s s' : GCodeMove K) : Prop :=
  s'.isPrinterReady = s.isPrinterReady ∧ s'.stopHeating = s.stopHeating ∧
    ((s'.lastPosition = s.lastPosition ∧ s'.issued = s.issued) ∨
      ∃ speed, s'.issued = .move s'.lastPosition speed)

/-- An error leaves the printer ready, and keeps the flag. -/
def Stays (s : GCodeMove K) (e : String × GCodeMove K) : Prop :=
  StaysReady s e ∧ e.2.stopHeating = s.stopHeating

variable {ps : Parsers K} {s s' : GCodeMove K} {gcmd : Gcmd} {raises : Option String}

theorem Follows.inStep (h : Follows s s') (hs : InStep s) : InStep s' := by
  intro hready
  rcases h with ⟨hr, ⟨hl, hi⟩ | h⟩
  · rw [hl, hi]
    exact hs (hr ▸ hready)
  · exact h

theorem Moves.follows (h : Moves s s') : Follows s s' := by
  obtain ⟨hready, -, hsame | ⟨speed, hmove⟩⟩ := h
  · exact ⟨hready, .inl hsame⟩
  · exact ⟨hready, .inr (by rw [hmove]; rfl)⟩

theorem inStep_resetLastPosition (s : GCodeMove K) (position : Coord K) :
    InStep (s.resetLastPosition position) := by
  unfold resetLastPosition
  split_ifs with hr
  · exact fun _ => rfl
  · exact fun h => absurd h hr

theorem moves_of_same (h : s'.isPrinterReady = s.isPrinterReady)
    (hheating : s'.stopHeating = s.stopHeating) (hposition : s'.lastPosition = s.lastPosition)
    (hissued : s'.issued = s.issued) : Moves s s' :=
  ⟨h, hheating, .inl ⟨hposition, hissued⟩⟩

theorem ensures_param {α : Type} (s : GCodeMove K) (x : Except String α) :
    Ensures (s.param x) (fun _ => True) (Stays s) := by
  cases x with
  | error e => exact .error ⟨rfl, rfl⟩
  | ok a => exact .ok trivial

/-- Reading a parameter, and then a handler that keeps the position. -/
theorem ensures_param_bind {α : Type} (s : GCodeMove K) (x : Except String α)
    {f : α → Handler K (GCodeMove K)} (hf : ∀ a, Ensures (f a) (Moves s) (Stays s)) :
    Ensures (s.param x >>= f) (Moves s) (Stays s) :=
  (ensures_param s x).bind fun a _ => hf a

theorem ensures_cmdG92 (s : GCodeMove K) :
    Ensures (cmdG92 ps gcmd s) (Moves s) (Stays s) := by
  unfold cmdG92
  refine ensures_param_bind s _ fun x => ensures_param_bind s _ fun y =>
    ensures_param_bind s _ fun z => ensures_param_bind s _ fun e => ?_
  dsimp only
  split_ifs
  · exact .ok (moves_of_same rfl rfl rfl rfl)
  · exact .ok (moves_of_same rfl rfl rfl rfl)

theorem ensures_cmdM220 (s : GCodeMove K) :
    Ensures (cmdM220 ps gcmd s) (Moves s) (Stays s) := by
  unfold cmdM220
  exact ensures_param_bind s _ fun _ => .ok (moves_of_same rfl rfl rfl rfl)

theorem ensures_cmdM221 (s : GCodeMove K) :
    Ensures (cmdM221 ps gcmd s) (Moves s) (Stays s) := by
  unfold cmdM221
  exact ensures_param_bind s _ fun _ => .ok (moves_of_same rfl rfl rfl rfl)

/-- What an offset changes is not the position. -/
def SamePosition (s s' : GCodeMove K) : Prop :=
  s'.isPrinterReady = s.isPrinterReady ∧ s'.lastPosition = s.lastPosition ∧ s'.issued = s.issued

/-- A state with the same position and flag raises an error. -/
theorem stays_of_same (h : SamePosition s s') (hheating : s'.stopHeating = s.stopHeating)
    (message : String) : Stays s (message, s') :=
  ⟨h.1, hheating⟩

theorem ensures_param_of_same {α : Type} (h : SamePosition s s')
    (hheating : s'.stopHeating = s.stopHeating) (x : Except String α) :
    Ensures (s'.param x) (fun _ => True) (Stays s) := by
  cases x with
  | error e => exact .error (stays_of_same h hheating e)
  | ok a => exact .ok trivial

theorem ensures_setOffset (s₀ s : GCodeMove K) (h : SamePosition s₀ s)
    (hheating : s.stopHeating = s₀.stopHeating) (pos : Fin 4) (axis : String) :
    Ensures (s.setOffset ps gcmd pos axis)
      (fun r => SamePosition s₀ r.1 ∧ r.1.stopHeating = s₀.stopHeating) (Stays s₀) := by
  unfold setOffset
  refine (ensures_param_of_same h hheating _).bind fun offset _ => ?_
  refine Ensures.bind (Q := fun _ => True) ?_ fun offset _ => ?_
  · cases offset with
    | none => exact (ensures_param_of_same h hheating _).bind fun _ _ => .ok trivial
    | some v => exact .ok trivial
  · cases offset with
    | none => exact .ok ⟨h, hheating⟩
    | some v => exact .ok ⟨⟨h.1, h.2.1, h.2.2⟩, hheating⟩

/-- A handler ends with a move if a parameter says so. -/
theorem ensures_optional_move {s₀ : GCodeMove K} (h : SamePosition s₀ s)
    (hheating : s.stopHeating = s₀.stopHeating) (target : Coord K) (move : ℤ) :
    Ensures (if move = 0 then .ok s else (do
        let speed ← s.param (gcmd.getFloatAbove ps "MOVE_SPEED" s.speed)
        { s with lastPosition := target }.moveWithTransform speed raises : Handler K (GCodeMove K)))
      (Moves s₀) (Stays s₀) := by
  split_ifs
  · exact .ok (moves_of_same h.1 hheating h.2.1 h.2.2)
  · refine (ensures_param_of_same h hheating _).bind fun speed _ => ?_
    cases raises with
    | none => exact .ok ⟨h.1, hheating, .inr ⟨speed, rfl⟩⟩
    | some e => exact .error ⟨h.1, hheating⟩

theorem ensures_cmdSetGcodeOffset (s : GCodeMove K) :
    Ensures (cmdSetGcodeOffset ps gcmd raises s) (Moves s) (Stays s) := by
  unfold cmdSetGcodeOffset
  refine (ensures_setOffset s s ⟨rfl, rfl, rfl⟩ rfl 0 "X").bind fun r1 h1 => ?_
  refine (ensures_setOffset s r1.1 h1.1 h1.2 1 "Y").bind fun r2 h2 => ?_
  refine (ensures_setOffset s r2.1 h2.1 h2.2 2 "Z").bind fun r3 h3 => ?_
  refine (ensures_setOffset s r3.1 h3.1 h3.2 3 "E").bind fun r4 h4 => ?_
  exact (ensures_param_of_same h4.1 h4.2 _).bind fun move _ =>
    ensures_optional_move h4.1 h4.2 _ move

theorem ensures_cmdRestoreGcodeState (s : GCodeMove K) :
    Ensures (cmdRestoreGcodeState ps gcmd raises s) (Moves s) (Stays s) := by
  unfold cmdRestoreGcodeState
  dsimp only
  split
  · exact .error ⟨rfl, rfl⟩
  · exact (ensures_param_of_same ⟨rfl, rfl, rfl⟩ rfl _).bind fun move _ =>
      ensures_optional_move ⟨rfl, rfl, rfl⟩ rfl _ move

/-! ## G1 -/

/-- `cmd_G1` leaves out the move. -/
def Suppressed (gcmd : Gcmd) (s : GCodeMove K) : Prop :=
  s.stopHeating ≠ 0 ∧ gcmd.params "Z" = none ∧ gcmd.params "240" = none ∧
    gcmd.params "200" = none ∧
    ∀ x, gcmd.params "X" = some x → strIn "240" x = false ∧ strIn "200" x = false

/-- A word is not a number, or the speed is not positive. -/
def Refused (ps : Parsers K) (gcmd : Gcmd) : Prop :=
  (∃ axis ∈ ["X", "Y", "Z", "E", "F"], gcmd.word ps axis = some none) ∨
    ∃ v, gcmd.word ps "F" = some (some v) ∧ v ≤ 0

/-- The words for x, y and e name the place where the head is. -/
def NamesPosition (ps : Parsers K) (gcmd : Gcmd) (s : GCodeMove K) : Prop :=
  (∀ v, gcmd.word ps "X" = some (some v) →
      v = if s.absoluteCoord then s.lastPosition 0 - s.basePosition 0 else 0) ∧
    (∀ v, gcmd.word ps "Y" = some (some v) →
      v = if s.absoluteCoord then s.lastPosition 1 - s.basePosition 1 else 0) ∧
    ∀ v, gcmd.word ps "E" = some (some v) → v * s.extrudeFactor =
      if s.absoluteCoord && s.absoluteExtrude then s.lastPosition 3 - s.basePosition 3 else 0

/-- A `cmd_G1` that changes the position and leaves out the move. -/
def DropsMove (ps : Parsers K) (gcmd : Gcmd) (s : GCodeMove K) : Prop :=
  Suppressed gcmd s ∧ ¬Refused ps gcmd ∧ ¬NamesPosition ps gcmd s

/-- Where a word that is a number or missing puts its axis. -/
def wordTarget (s : GCodeMove K) (pos : Fin 4) (relative : Bool) : Option (Option K) → K
  | some (some v) => if relative then s.lastPosition pos + v else v + s.basePosition pos
  | _ => s.lastPosition pos

/-- A word stays at its place if it names it. -/
theorem wordTarget_eq_iff (s : GCodeMove K) (pos : Fin 4) (relative : Bool)
    (word : Option (Option K)) :
    s.wordTarget pos relative word = s.lastPosition pos ↔ ∀ v, word = some (some v) →
      v = if relative then 0 else s.lastPosition pos - s.basePosition pos := by
  rcases word with _ | _ | v
  · simp [wordTarget]
  · simp [wordTarget]
  · cases relative <;> simp [wordTarget, eq_sub_iff_add_eq]

/-- A word that is no number raises an error, else its axis is set. -/
theorem moveWord_eq (axis : String) (pos : Fin 4) (r : GCodeMove K → Bool)
    (g : GCodeMove K → K → K) :
    moveWord ps gcmd axis s (fun s v => .ok (s.setCoord pos (r s) (g s v))) =
      if gcmd.word ps axis = some none then
        .error (s!"Unable to parse move '{gcmd.commandline}'", s)
      else .ok { s with
        lastPosition := Function.update s.lastPosition pos
          (s.wordTarget pos (r s) ((gcmd.word ps axis).map (Option.map (g s)))) } := by
  unfold moveWord
  rcases gcmd.word ps axis with _ | _ | v
  · simp [wordTarget]
  · simp
  · simp [wordTarget, setCoord]

theorem moveWord_eq_ok_iff (axis : String) (pos : Fin 4) (r : GCodeMove K → Bool)
    (g : GCodeMove K → K → K) :
    moveWord ps gcmd axis s (fun s v => .ok (s.setCoord pos (r s) (g s v))) = .ok s' ↔
      gcmd.word ps axis ≠ some none ∧ { s with
        lastPosition := Function.update s.lastPosition pos
          (s.wordTarget pos (r s) ((gcmd.word ps axis).map (Option.map (g s)))) } = s' := by
  rw [moveWord_eq]
  split_ifs with h <;> simp [h]

/-- The new speed after the words of `cmd_G1`. -/
def wordSpeed (ps : Parsers K) (gcmd : Gcmd) (s : GCodeMove K) : K :=
  match gcmd.word ps "F" with
  | some (some v) => v * s.speedFactor
  | _ => s.speed

theorem moveWord_speed_eq_ok_iff :
    moveWord ps gcmd "F" s (fun s gcodeSpeed =>
      if gcodeSpeed ≤ 0 then .error (s!"Invalid speed in '{gcmd.commandline}'", s)
      else .ok { s with speed := gcodeSpeed * s.speedFactor }) = .ok s' ↔
      gcmd.word ps "F" ≠ some none ∧ (∀ v, gcmd.word ps "F" = some (some v) → 0 < v) ∧
        { s with speed := wordSpeed ps gcmd s } = s' := by
  unfold moveWord wordSpeed
  rcases gcmd.word ps "F" with _ | _ | v
  · simp
  · simp
  · by_cases hv : v ≤ 0
    · simp [hv]
    · simp [hv, not_le.1 hv]

/-- The position after the words of `cmd_G1`. -/
def wordsPosition (ps : Parsers K) (gcmd : Gcmd) (s : GCodeMove K) : Coord K :=
  ![s.wordTarget 0 (!s.absoluteCoord) (gcmd.word ps "X"),
    s.wordTarget 1 (!s.absoluteCoord) (gcmd.word ps "Y"),
    s.wordTarget 2 (!s.absoluteCoord) (gcmd.word ps "Z"),
    s.wordTarget 3 (!s.absoluteCoord || !s.absoluteExtrude)
      ((gcmd.word ps "E").map (Option.map (· * s.extrudeFactor)))]

theorem not_refused_iff : ¬Refused ps gcmd ↔ gcmd.word ps "X" ≠ some none ∧
    gcmd.word ps "Y" ≠ some none ∧ gcmd.word ps "Z" ≠ some none ∧ gcmd.word ps "E" ≠ some none ∧
      gcmd.word ps "F" ≠ some none ∧ ∀ v, gcmd.word ps "F" = some (some v) → 0 < v := by
  simp [Refused, and_assoc]

/-- Words that are numbers or missing, and a positive speed, set the position and speed. -/
theorem parseG1_eq_ok_iff : parseG1 ps gcmd s = .ok s' ↔ ¬Refused ps gcmd ∧
    { s with lastPosition := wordsPosition ps gcmd s, speed := wordSpeed ps gcmd s } = s' := by
  have hid : ∀ w : Option (Option K), w.map (Option.map fun v => v) = w := fun w => by
    rcases w with _ | _ | v <;> rfl
  -- each word sees the other axes as they were
  have hpos : Function.update (Function.update (Function.update (Function.update s.lastPosition
      0 (s.wordTarget 0 (!s.absoluteCoord) (gcmd.word ps "X")))
      1 (s.wordTarget 1 (!s.absoluteCoord) (gcmd.word ps "Y")))
      2 (s.wordTarget 2 (!s.absoluteCoord) (gcmd.word ps "Z")))
      3 (s.wordTarget 3 (!s.absoluteCoord || !s.absoluteExtrude)
        ((gcmd.word ps "E").map (Option.map (· * s.extrudeFactor)))) =
      wordsPosition ps gcmd s := by
    ext i
    fin_cases i <;> simp [wordsPosition]
  have hother : ∀ (p : Coord K) (pos : Fin 4) (relative : Bool) (word : Option (Option K)),
      p pos = s.lastPosition pos → wordTarget { s with lastPosition := p } pos relative word =
        s.wordTarget pos relative word := by
    intro p pos relative word hp
    rcases word with _ | _ | v <;> simp [wordTarget, hp]
  unfold parseG1
  simp only [bind_eq_ok, moveWord_eq_ok_iff, moveWord_speed_eq_ok_iff, hid, not_refused_iff,
    and_assoc, exists_and_left, exists_eq_left']
  rw [hother _ 1 _ _ (by simp), hother _ 2 _ _ (by simp), hother _ 3 _ _ (by simp), hpos]
  exact Iff.rfl

/-- The words leave the position if they name it. -/
theorem wordsPosition_eq_iff (hz : gcmd.params "Z" = none) :
    wordsPosition ps gcmd s = s.lastPosition ↔ NamesPosition ps gcmd s := by
  have hword : gcmd.word ps "Z" = none := by rw [Gcmd.word, hz, Option.map_none]
  have hall : wordsPosition ps gcmd s = s.lastPosition ↔
      s.wordTarget 0 (!s.absoluteCoord) (gcmd.word ps "X") = s.lastPosition 0 ∧
      s.wordTarget 1 (!s.absoluteCoord) (gcmd.word ps "Y") = s.lastPosition 1 ∧
      s.wordTarget 2 (!s.absoluteCoord) (gcmd.word ps "Z") = s.lastPosition 2 ∧
      s.wordTarget 3 (!s.absoluteCoord || !s.absoluteExtrude)
        ((gcmd.word ps "E").map (Option.map (· * s.extrudeFactor))) = s.lastPosition 3 := by
    simp [funext_iff, Fin.forall_fin_succ, wordsPosition]
  rw [hall]
  simp only [wordTarget_eq_iff, hword, NamesPosition]
  cases s.absoluteCoord <;> cases s.absoluteExtrude <;> simp

/-- After its words `cmd_G1` moves, unless the move is suppressed. -/
theorem cmdG1_of_parseG1 (raises : Option String) (h : parseG1 ps gcmd s = .ok s') :
    (Suppressed gcmd s' → cmdG1 ps gcmd raises s = .ok s') ∧
      (¬Suppressed gcmd s' → cmdG1 ps gcmd raises s = s'.moveWithTransform s'.speed raises) := by
  unfold cmdG1
  rw [h]
  simp only [bind, Except.bind]
  by_cases h0 : s'.stopHeating = 0
  · simp [h0, Suppressed]
  · rw [if_neg h0]
    by_cases hkeys : gcmd.params "Z" = none ∧ gcmd.params "240" = none ∧ gcmd.params "200" = none
    · obtain ⟨hz, h240, h200⟩ := hkeys
      rcases hx : gcmd.params "X" with _ | x
      · simp [Suppressed, h0, hz, h240, h200, hx]
      · by_cases hin : strIn "240" x = true ∨ strIn "200" x = true
        · simp [Suppressed, h0, hz, h240, h200, hx, hin]
          rcases hin with hin | hin <;> simp [hin]
        · simp_all [Suppressed]
    · have hnot : ¬Suppressed gcmd s' := fun h => hkeys ⟨h.2.1, h.2.2.1, h.2.2.2.1⟩
      refine ⟨fun h => absurd h hnot, fun _ => if_pos ?_⟩
      simp only [Option.isSome_iff_ne_none, Bool.or_eq_true]
      tauto

/-- Where `cmd_G1` leaves the position while the printer is ready : it follows the moves,
unless the move is left out. -/
theorem inStep_g1_iff (hs : InStep s) (hready : s.isPrinterReady = true) (position : Coord K) :
    InStep (processCommand ps (.g1 gcmd raises) position s) ↔ ¬DropsMove ps gcmd s := by
  by_cases hr : Refused ps gcmd
  · -- an error resets the position
    refine iff_of_true ?_ fun h => h.2.1 hr
    have hparse : ∀ s', parseG1 ps gcmd s ≠ .ok s' := fun s' h => (parseG1_eq_ok_iff.1 h).1 hr
    cases hp : parseG1 ps gcmd s with
    | ok s' => exact absurd hp (hparse s')
    | error e =>
      have hcmd : cmdG1 ps gcmd raises s = .error e := by simp [cmdG1, hp, bind, Except.bind]
      simp only [processCommand, handler, hcmd]
      exact inStep_resetLastPosition _ _
  · have hp := (parseG1_eq_ok_iff (s := s)).2 ⟨hr, rfl⟩
    obtain ⟨hsup, hmove⟩ := cmdG1_of_parseG1 raises hp
    have hsame : Suppressed gcmd { s with
        lastPosition := wordsPosition ps gcmd s, speed := wordSpeed ps gcmd s } ↔
        Suppressed gcmd s := Iff.rfl
    rw [hsame] at hsup hmove
    by_cases hs' : Suppressed gcmd s
    · have hdrop : DropsMove ps gcmd s ↔ ¬NamesPosition ps gcmd s := by simp [DropsMove, hs', hr]
      simp only [processCommand, handler, hsup hs']
      rw [hdrop, not_not, ← wordsPosition_eq_iff hs'.2.1, hs hready]
      exact ⟨fun h => h hready, fun h _ => h⟩
    · refine iff_of_true ?_ fun h => hs' h.1
      simp only [processCommand, handler, hmove hs']
      cases raises with
      | none => exact fun _ => rfl
      | some e => exact inStep_resetLastPosition _ _

/-! ## Runs -/

/-- No move is left out after the position has changed. -/
def NoneDropped (ps : Parsers K) (s : GCodeMove K) : Event K → Prop
  | .command (.g1 gcmd _) _ => ¬DropsMove ps gcmd s
  | _ => True

theorem ensures_handler {cmd : Command} (hcmd : ∀ gcmd raises, cmd ≠ .g1 gcmd raises) :
    Ensures (handler ps cmd s) (Moves s) (Stays s) := by
  cases cmd with
  | g1 gcmd raises => exact absurd rfl (hcmd gcmd raises)
  | g20 => exact Ensures.error (E := Stays s) ⟨rfl, rfl⟩
  | g21 | m82 | m83 | g90 | g91 | saveGcodeState =>
    exact Ensures.ok (Q := Moves s) (moves_of_same rfl rfl rfl rfl)
  | g92 gcmd => exact ensures_cmdG92 s
  | m220 gcmd => exact ensures_cmdM220 s
  | m221 gcmd => exact ensures_cmdM221 s
  | setGcodeOffset gcmd raises => exact ensures_cmdSetGcodeOffset s
  | restoreGcodeState gcmd raises => exact ensures_cmdRestoreGcodeState s

/-- A handler that keeps the position keeps it in step, and its error resets it. -/
theorem inStep_processCommand {cmd : Command} (hcmd : ∀ gcmd raises, cmd ≠ .g1 gcmd raises)
    (hs : InStep s) (position : Coord K) : InStep (processCommand ps cmd position s) := by
  have h : Ensures (handler ps cmd s) (Moves s) (Stays s) := ensures_handler hcmd
  unfold processCommand
  cases hr : handler ps cmd s with
  | ok s' =>
    rw [hr] at h
    exact (Moves.follows h).inStep hs
  | error e => exact inStep_resetLastPosition _ _

/-- Every event but a move that is left out keeps the position in step. -/
theorem InStep.next (hs : InStep s) {e : Event K} (hC : NoneDropped ps s e)
    (hn : next ps s e = some s') : InStep s' := by
  cases e with
  | command cmd position =>
    obtain ⟨hready, hn⟩ := (Option.ite_none_right_eq_some).1 hn
    obtain rfl := Option.some_inj.1 hn
    cases cmd with
    | g1 gcmd raises => exact (inStep_g1_iff hs hready position).2 hC
    | _ => exact inStep_processCommand (fun _ _ h => by cases h) hs position
  | reset position | activateExtruder position | homeRailsEnd axes position =>
    obtain rfl := Option.some_inj.1 hn
    exact inStep_resetLastPosition s position
  | setStopHeating v =>
    obtain rfl := Option.some_inj.1 hn
    exact hs
  | shutdown =>
    obtain rfl := Option.some_inj.1 hn
    exact fun h => absurd h Bool.false_ne_true

/-- In runs that leave out no move, the last position is at all times the target of the last
move or what was read after it; and a G1 keeps it so just if it does not leave out a move. -/
theorem inStep_of_reachable (h : (system ps).ReachableBy (NoneDropped ps) s) :
    InStep s ∧ (s.isPrinterReady = true → ∀ gcmd raises position,
      InStep (processCommand ps (.g1 gcmd raises) position s) ↔ ¬DropsMove ps gcmd s) := by
  have hs : InStep s := by
    refine h.invariant (I := InStep) (fun s hinit _ => ?_) fun _ _ _ hs hC hn => hs.next hC hn
    obtain ⟨-, position, hl, hi⟩ := hinit
    rw [hl, hi]
    rfl
  exact ⟨hs, fun hready gcmd raises position => inStep_g1_iff hs hready position⟩

/-- The parsers on the one number that the command below has. -/
def tenParsers : Parsers ℚ where
  float w := if w = "10" then some 10 else none
  int _ := none

/-- `G1 X10`. -/
def g1x10 : Gcmd where
  commandline := "G1 X10"
  params name := if name = "G" then some "1" else if name = "X" then some "10" else none

/-- A printer that is ready, at the origin. -/
def atOrigin : GCodeMove ℚ where
  isPrinterReady := true
  stopHeating := 0
  absoluteCoord := true
  absoluteExtrude := true
  basePosition := 0
  lastPosition := 0
  homingPosition := 0
  speed := 25
  speedFactor := 1 / 60
  extrudeFactor := 1
  savedStates _ := none
  issued := .reset 0

theorem inStep_g1x10 : ∃ s : GCodeMove ℚ,
    next tenParsers atOrigin (.command (.g1 g1x10 none) 0) = some s ∧ s.lastPosition 0 = 10 ∧
      InStep s := by
  have hnone : NoneDropped tenParsers atOrigin (.command (.g1 g1x10 none) 0) :=
    fun h => h.1.1 rfl
  exact ⟨_, rfl, by decide +kernel,
    (inStep_of_reachable (.step (.init ⟨rfl, 0, rfl, rfl⟩) hnone rfl)).1⟩

/-- After a cancel, `G1 X10` changes the position without a move. -/
theorem not_inStep_cancelled :
    ¬∀ s : GCodeMove ℚ, (system tenParsers).Reachable s → InStep s := by
  intro h
  have hinit : (system tenParsers).Reachable atOrigin := .init ⟨rfl, 0, rfl, rfl⟩
  have hcancel := hinit.step trivial (a := .setStopHeating 1) rfl
  have hstep := h _ (hcancel.step trivial (a := .command (.g1 g1x10 none) 0) rfl)
  have hx := congrFun (hstep (by decide +kernel)) 0
  exact absurd hx (by decide +kernel)

end GCodeMove

end Thinker
