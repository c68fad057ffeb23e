import Thinker.Lines
import Thinker.Numerals

/-!
# The config file and its autosave block

`PrinterConfig` of `configfile.py`. `SAVE_CONFIG` writes the config file anew : the text that the
user wrote, in which the options that are saved are commented out, and behind a header the saved
options, each line with a prefix.

The parser of a config file, which reads the files that are included as well, is a parameter.
-/

namespace Thinker

open Text

/-- `RawConfigParser` : the default options, and the options of each section, in their order. The
parser takes no option without a name, and none is set. -/
structure FileConfig where
  defaults : List (Text × Text)
  sections : List (Text × List (Text × Text))
  named_defaults : ∀ e ∈ defaults, e.1 ≠ []
  named : ∀ s ∈ sections, ∀ e ∈ s.2, e.1 ≠ []

namespace FileConfig

/-- `optionxform`. -/
def optionxform (option : Text) : Text :=
  option.map Char.toLower

/-- `has_option`. -/
def hasOption (c : FileConfig) (section_ : Option Text) (option : Text) : Bool :=
  let option := optionxform option
  let inDefaults := c.defaults.any (·.1 = option)
  match section_ with
  | none => inDefaults
  | some name =>
    if name = [] ∨ name = "DEFAULT".toList then inDefaults
    else
      match c.sections.lookup name with
      | none => false
      | some options => options.any (·.1 = option) || inDefaults

/-- `options`. -/
def options (c : FileConfig) (name : Text) : List Text :=
  let names := ((c.sections.lookup name).getD []).map Prod.fst
  names ++ (c.defaults.map Prod.fst).filter (· ∉ names)

/-- `_write_section`. -/
def writeSection (name : Text) (options : List (Text × Text)) : Text :=
  '[' :: (name ++ [']', '\n'] ++ options.flatMap (fun e =>
    e.1 ++ [' ', '=', ' '] ++ e.2.flatMap (fun c => if c = '\n' then ['\n', '\t'] else [c]) ++
      ['\n']) ++ ['\n'])

/-- `write`. -/
def write (c : FileConfig) : Text :=
  (if c.defaults = [] then [] else writeSection "DEFAULT".toList c.defaults) ++
    c.sections.flatMap fun s => writeSection s.1 s.2

end FileConfig

/-! ## Reading -/

/-- `AUTOSAVE_HEADER`. -/
def autosaveHeader : Text :=
  ("\n#*# <---------------------- SAVE_CONFIG ---------------------->\n" ++
    "#*# DO NOT EDIT THIS BLOCK OR BELOW. The contents are auto-generated.\n#*#\n").toList

/-- What every line of the block begins with, if anything is behind it. -/
def linePrefix : Text :=
  ['#', '*', '#', ' ']

/-- `_read_config_file`, of a file with this content. It is opened in text mode, so that the
newlines are translated. -/
def readConfigFile : Text → Text
  | [] => []
  | '\r' :: '\n' :: t => '\n' :: readConfigFile t
  | '\r' :: t => '\n' :: readConfigFile t
  | c :: t => c :: readConfigFile t

/-- A line of the block that has not been modified. -/
def Prefixed (line : Text) : Prop :=
  linePrefix.take 3 <+: line ∧ (4 ≤ line.length → linePrefix <+: line)

instance (line : Text) : Decidable (Prefixed line) :=
  inferInstanceAs (Decidable (_ ∧ _))

/-- `_find_autosave_data` : the regular part and the autosave part. -/
def findAutosaveData (data : Text) : Text × Text :=
  let (regularData, autosaveData) :=
    match find autosaveHeader data with
    | none => (data, [])
    | some pos => (data.take pos, strip (data.drop (pos + autosaveHeader.length)))
  -- autosave state corrupted
  if '\n' :: linePrefix <:+: regularData then (data, [])
  else
    let lines := autosaveData.splitOn '\n'
    -- modifications after header
    if autosaveData ≠ [] ∧ ∃ line ∈ lines, ¬ Prefixed line then (data, [])
    else (regularData, joinLines ([] :: (lines.map (List.drop 4) ++ [[]])))

/-- What a line is for `_strip_duplicates`. -/
inductive LineKind where
  | blank
  | continuation
  | header (name : Text)
  | option (field : Text)
  deriving DecidableEq

/-- What `value_r` leaves. -/
def isWord (c : Char) : Bool :=
  c.isAlphanum || c = '_'

/-- The tests of `_strip_duplicates`, on the line without its comment. -/
def lineKind (line : Text) : LineKind :=
  match rstrip (line.takeWhile fun c => c ≠ '#' ∧ c ≠ ';') with
  | [] => .blank
  | c :: prunedLine =>
    if isSpace c then .continuation
    else if c = '[' then .header (strip prunedLine.dropLast)
    else .option ((c :: prunedLine).takeWhile isWord)

/-- The loop of `_strip_duplicates`, with `section` and `is_dup_field`. -/
def stripLines (config : FileConfig) : Option Text → Bool → List Text → List Text
  | _, _, [] => []
  | section_, isDupField, line :: lines =>
    match lineKind line with
    | .blank => line :: stripLines config section_ isDupField lines
    | .continuation =>
      (if isDupField then '#' :: line else line) :: stripLines config section_ isDupField lines
    | .header name => line :: stripLines config (some name) false lines
    | .option field =>
      if config.hasOption section_ field then
        ('#' :: line) :: stripLines config section_ true lines
      else line :: stripLines config section_ false lines

/-- `_strip_duplicates`. -/
def stripDuplicates (data : Text) (config : FileConfig) : Text :=
  joinLines (stripLines config none false (data.splitOn '\n'))

/-! ## Writing -/

/-- `_build_config_string`. -/
def buildConfigString (config : FileConfig) : Text :=
  strip config.write

/-- What `SAVE_CONFIG` raises. -/
inductive SaveError where
  /-- Unable to parse existing config on SAVE_CONFIG -/
  | existing
  /-- The error of the parser, for the config with the saved options commented out. -/
  | config
  /-- SAVE_CONFIG section option conflicts with included value -/
  | conflict (name option : Text)
  /-- Unable to write config file during SAVE_CONFIG -/
  | write

/-- `_disallow_include_conflicts`, for the config that was parsed. -/
def includeConflict (autosave config : FileConfig) : Option (Text × Text) :=
  (autosave.sections.flatMap fun s => (autosave.options s.1).map fun option => (s.1, option)).find?
    fun e => config.hasOption (some e.1) e.2

/-- The block that is written behind the regular part. -/
def autosaveBlock (autosave : FileConfig) : Text :=
  let lines := ((buildConfigString autosave).splitOn '\n').map fun l => strip (linePrefix ++ l)
  joinLines (('\n' :: rstrip autosaveHeader) :: (lines ++ [[]]))

/-- `cmd_SAVE_CONFIG` : the new content of the config file, where there is something to save. -/
def cmdSaveConfig (buildConfigWrapper : Text → Option FileConfig) (autosave : FileConfig)
    (content : Text) (writable : Bool) : Except SaveError (Option Text) :=
  if autosave.sections = [] then .ok none
  else
    let regularData := (findAutosaveData (readConfigFile content)).1
    match buildConfigWrapper regularData with
    | none => .error .existing
    | some _ =>
      let regularData := stripDuplicates regularData autosave
      match buildConfigWrapper regularData with
      | none => .error .config
      | some config =>
        match includeConflict autosave config with
        | some (name, option) => .error (.conflict name option)
        | none =>
          if writable then .ok (some (rstrip regularData ++ autosaveBlock autosave))
          else .error .write

end Thinker
