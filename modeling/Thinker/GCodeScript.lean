import Thinker.Numerals
import Thinker.VirtualSd

/-!
# G-code scripts

How `gcode.py` reads a script : its lines, the command of a line, and the handler of a command.
What `str.upper` does to characters beyond ASCII matters to no result, so it is a parameter.
-/

namespace Thinker

/-- `[A-Z_]`. -/
def isNameChar (c : Char) : Bool :=
  ('A' ≤ c && c ≤ 'Z') || c == '_'

/-- `args_r.split` : the text between the names, which are at the odd places. A name is a run of
`[A-Z_]`, or one of `*` and `/`. -/
def argsSplit : Text → List Text
  | [] => [[]]
  | c :: t =>
    match argsSplit t with
    | [] => []
    | before :: parts =>
      if isNameChar c then
        match before, parts with
        | [], (d :: name) :: parts =>
          if isNameChar d then [] :: (c :: d :: name) :: parts
          else [] :: [c] :: [] :: (d :: name) :: parts
        | _, _ => [] :: [c] :: before :: parts
      else if c = '*' ∨ c = '/' then [] :: [c] :: before :: parts
      else (c :: before) :: parts

/-- The command of a line in `_process_commands`. -/
def command (upper : Text → Text) (line : Text) : Text :=
  match argsSplit (upper (line.strip.takeWhile (· ≠ ';'))) with
  | _ :: name :: value :: parts =>
    if name ≠ ['N'] then name ++ value.strip
    else
      match parts with
      | name :: value :: _ => name ++ value.strip
      | _ => []
  | _ => []

/-- The tables of `GCodeDispatch`, by their keys, and whether the printer is ready. -/
structure GCodeDispatch where
  isPrinterReady : Bool
  baseGcodeHandlers : List Text
  readyGcodeHandlers : List Text

namespace GCodeDispatch

/-- `gcode_handlers`. -/
def gcodeHandlers (g : GCodeDispatch) : List Text :=
  if g.isPrinterReady then g.readyGcodeHandlers else g.baseGcodeHandlers

/-- What becomes of a command : its handler is called, or `cmd_default` returns or raises the
state message. -/
inductive Lookup where
  | handler (cmd : Text)
  | default
  | notReady (stateMessage : Text)
  deriving DecidableEq

/-- The lookup of `_process_commands`, with `cmd_default`. -/
def lookup (g : GCodeDispatch) (stateMessage cmd : Text) : Lookup :=
  if cmd ∈ g.gcodeHandlers then .handler cmd
  else if cmd = "M105".toList ∨ cmd = "M21".toList then .default
  else if g.isPrinterReady = false then .notReady stateMessage
  else if ("M117 ".toList <+: cmd ∨ "M118 ".toList <+: cmd) ∧ cmd.take 4 ∈ g.gcodeHandlers then
    .handler (cmd.take 4)
  else .default

/-- While the printer is not ready, only the handlers of the base table are called. -/
theorem mem_base_of_lookup {g : GCodeDispatch} (hready : g.isPrinterReady = false)
    {stateMessage cmd handler : Text} (h : g.lookup stateMessage cmd = .handler handler) :
    handler ∈ g.baseGcodeHandlers := by
  unfold lookup at h
  split_ifs at h with hmem hack
  · obtain rfl := Lookup.handler.inj h
    simpa [gcodeHandlers, hready] using hmem

/-- `_handle_ready`. -/
def handleReady (g : GCodeDispatch) : GCodeDispatch :=
  { g with isPrinterReady := true }

/-- `_handle_shutdown`. -/
def handleShutdown (g : GCodeDispatch) : GCodeDispatch :=
  { g with isPrinterReady := false }

end GCodeDispatch

example : command (·.map Char.toUpper) "N12 g1x10 y2 ; a move".toList = "G1".toList := by
  decide +kernel

example : command (·.map Char.toUpper) " cancel_print".toList = "CANCEL_PRINT".toList := by
  decide +kernel

end Thinker
