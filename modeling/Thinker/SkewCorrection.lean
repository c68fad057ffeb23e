import Mathlib.Analysis.SpecialFunctions.Trigonometric.Inverse
import Thinker.GCodeMove
import Thinker.Lines

/-!
# Skew correction

`PrinterSkew` of `skew_correction.py`, as the transform of `GCodeMove`. A move goes to the skewed
position, and the position that is read back is unskewed, which is exact (`calcUnskew_calcSkew`).

When the factors change, the position that is read back changes with them, so `last_position` has
to be read again. `SKEW_PROFILE LOAD` and `SET_SKEW CLEAR=1` do this, `SET_SKEW` with lengths does
not : it keeps the position in step only where the new factors correct the position by as much as
the old ones did (`inSync_of_reachable`, `not_inSync_setSkew`).
-/

set_option linter.unusedSectionVars false

namespace Thinker

variable {K : Type} [Field K] [LinearOrder K] [IsStrictOrderedRing K]

/-- The functions of `math`, where they are defined. -/
structure MathLib (K : Type) where
  sqrt : K → K
  acos : K → K
  tan : K → K
  pi : K

/-- `xy_factor`, `xz_factor` and `yz_factor`, and the values of a profile. -/
structure SkewFactors (K : Type) where
  xy : K
  xz : K
  yz : K

/-- `PrinterSkew`. -/
structure PrinterSkew (K : Type) where
  factors : SkewFactors K
  skewProfiles : String → Option (SkewFactors K)

/-- `calc_skew_factor`. `none` stands for an exception of `math` or of a division. -/
def calcSkewFactor (m : MathLib K) (ac bd ad : K) : Option K :=
  let square := 2 * ac * ac + 2 * bd * bd - 4 * ad * ad
  let side := m.sqrt square / 2
  let cosine := (ac * ac - side * side - ad * ad) / (2 * side * ad)
  if square < 0 ∨ 2 * side * ad = 0 ∨ cosine < -1 ∨ 1 < cosine then none
  else some (m.tan (m.pi / 2 - m.acos cosine))

namespace SkewFactors

variable (f : SkewFactors K) (pos : Coord K)

/-- `calc_skew`. -/
def calcSkew : Coord K :=
  ![pos 0 - pos 1 * f.xy - pos 2 * (f.xz - f.xy * f.yz), pos 1 - pos 2 * f.yz, pos 2, pos 3]

/-- `calc_unskew`. -/
def calcUnskew : Coord K :=
  ![pos 0 + pos 1 * f.xy + pos 2 * f.xz, pos 1 + pos 2 * f.yz, pos 2, pos 3]

theorem calcUnskew_calcSkew : f.calcUnskew (f.calcSkew pos) = pos := by
  ext i
  fin_cases i <;> simp [calcUnskew, calcSkew]
  ring

/-- Other factors correct a position by as much just if these sums vanish. -/
theorem calcUnskew_eq_iff (g : SkewFactors K) : g.calcUnskew pos = f.calcUnskew pos ↔
    pos 1 * (g.xy - f.xy) + pos 2 * (g.xz - f.xz) = 0 ∧ pos 2 * (g.yz - f.yz) = 0 := by
  have hx : pos 0 + pos 1 * g.xy + pos 2 * g.xz = pos 0 + pos 1 * f.xy + pos 2 * f.xz ↔
      pos 1 * (g.xy - f.xy) + pos 2 * (g.xz - f.xz) = 0 := by
    rw [← sub_eq_zero]
    ring_nf
  have hy : pos 1 + pos 2 * g.yz = pos 1 + pos 2 * f.yz ↔ pos 2 * (g.yz - f.yz) = 0 := by
    rw [← sub_eq_zero]
    ring_nf
  rw [← hx, ← hy]
  simp [calcUnskew, funext_iff, Fin.forall_fin_succ]

end SkewFactors

namespace PrinterSkew

/-- An error of a command, which the dispatcher reports, or an exception of another kind, which
shuts the printer down. -/
inductive Raised (K : Type) where
  | command (message : String) (s : PrinterSkew K)
  | internal (s : PrinterSkew K)

/-- `split(",", 2)`. -/
def splitTwice (t : Text) : List Text :=
  match t.splitOn ',' with
  | a :: b :: c :: rest => [a, b, [','].intercalate (c :: rest)]
  | parts => parts

/-- The three lengths of a plane. -/
def parseLengths (ps : Parsers K) (lengths : String) : Option (K × K × K) :=
  match (splitTwice (Text.strip lengths.toList)).mapM fun l => ps.float (.ofList l.strip) with
  | some [ac, bd, ad] => some (ac, bd, ad)
  | _ => none

/-- One plane of `cmd_SET_SKEW`. -/
def setPlane (m : MathLib K) (ps : Parsers K) (gcmd : Gcmd) (plane : String)
    (set : SkewFactors K → K → SkewFactors K) (s : PrinterSkew K) :
    Except (Raised K) (PrinterSkew K) :=
  match gcmd.params plane with
  | none => .ok s
  | some lengths =>
    match parseLengths ps lengths with
    | none => .error (.command ("skew_correction: improperly formatted entry for " ++
        s!"plane [{plane}]\n{gcmd.commandline}") s)
    | some (ac, bd, ad) =>
      match calcSkewFactor m ac bd ad with
      | none => .error (.internal s)
      | some factor => .ok { s with factors := set s.factors factor }

/-- The loop of `cmd_SET_SKEW`. -/
def setPlanes (m : MathLib K) (ps : Parsers K) (gcmd : Gcmd) (s : PrinterSkew K) :
    Except (Raised K) (PrinterSkew K) := do
  let s ← s.setPlane m ps gcmd "XY" fun f v => { f with xy := v }
  let s ← s.setPlane m ps gcmd "XZ" fun f v => { f with xz := v }
  s.setPlane m ps gcmd "YZ" fun f v => { f with yz := v }

/-- `cmd_SET_SKEW`, and whether it calls `reset_last_position`. -/
def cmdSetSkew (m : MathLib K) (ps : Parsers K) (gcmd : Gcmd) (s : PrinterSkew K) :
    Except (Raised K) (PrinterSkew K × Bool) :=
  match gcmd.getInt ps "CLEAR" with
  | .error message => .error (.command message s)
  | .ok clear =>
    if clear ≠ 0 then .ok ({ s with factors := ⟨0, 0, 0⟩ }, true)
    else (s.setPlanes m ps gcmd).map fun s => (s, false)

/-- `cmd_SKEW_PROFILE`, and whether it calls `reset_last_position`. What it writes to the config
file is left out. -/
def cmdSkewProfile (gcmd : Gcmd) (s : PrinterSkew K) : PrinterSkew K × Bool :=
  match gcmd.params "LOAD", gcmd.params "SAVE", gcmd.params "REMOVE" with
  | some name, _, _ =>
    match s.skewProfiles name with
    | none => (s, false)
    | some prof => ({ s with factors := prof }, true)
  | none, some name, _ =>
    ({ s with skewProfiles := Function.update s.skewProfiles name (some s.factors) }, false)
  | none, none, some name =>
    ({ s with skewProfiles := Function.update s.skewProfiles name none }, false)
  | none, none, none => (s, false)

end PrinterSkew

/-! ### The factors that `SET_SKEW` sets -/

namespace PrinterSkew

/-- The factor of a plane : the one that its lengths give, or the old one. `none` stands for lengths
that are refused. -/
def newFactor (m : MathLib K) (ps : Parsers K) (gcmd : Gcmd) (plane : String) (old : K) :
    Option K :=
  match gcmd.params plane with
  | none => some old
  | some lengths => (parseLengths ps lengths).bind fun (ac, bd, ad) => calcSkewFactor m ac bd ad

/-- The factors of the three planes. -/
def newFactors (m : MathLib K) (ps : Parsers K) (gcmd : Gcmd) (f : SkewFactors K) :
    Option (SkewFactors K) :=
  (newFactor m ps gcmd "XY" f.xy).bind fun xy =>
    (newFactor m ps gcmd "XZ" f.xz).bind fun xz =>
      (newFactor m ps gcmd "YZ" f.yz).map fun yz => ⟨xy, xz, yz⟩

variable {m : MathLib K} {ps : Parsers K} {gcmd : Gcmd} {s t : PrinterSkew K}

theorem setPlane_eq_ok {plane : String} (old : K) {set : SkewFactors K → K → SkewFactors K}
    (hset : set s.factors old = s.factors) : s.setPlane m ps gcmd plane set = .ok t ↔
      ∃ v ∈ newFactor m ps gcmd plane old, { s with factors := set s.factors v } = t := by
  unfold setPlane newFactor
  cases gcmd.params plane with
  | none => simp [hset]
  | some lengths =>
    cases hparse : parseLengths ps lengths with
    | none => simp [hparse]
    | some l =>
      obtain ⟨ac, bd, ad⟩ := l
      cases hfactor : calcSkewFactor m ac bd ad with
      | none => simp [hparse, hfactor]
      | some v => simp [hparse, hfactor]

/-- `SET_SKEW` sets these factors, if no lengths are refused. -/
theorem setPlanes_eq_ok : s.setPlanes m ps gcmd = .ok t ↔
    ∃ g ∈ newFactors m ps gcmd s.factors, { s with factors := g } = t := by
  unfold setPlanes
  simp only [bind_eq_ok]
  constructor
  · rintro ⟨s₁, h₁, s₂, h₂, h₃⟩
    obtain ⟨xy, hxy, rfl⟩ := (setPlane_eq_ok s.factors.xy rfl).1 h₁
    obtain ⟨xz, hxz, rfl⟩ := (setPlane_eq_ok s.factors.xz rfl).1 h₂
    obtain ⟨yz, hyz, rfl⟩ := (setPlane_eq_ok s.factors.yz rfl).1 h₃
    refine ⟨⟨xy, xz, yz⟩, ?_, rfl⟩
    simp [newFactors, Option.mem_def.1 hxy, Option.mem_def.1 hxz, Option.mem_def.1 hyz]
  · rintro ⟨g, hg, rfl⟩
    simp only [newFactors, Option.mem_def, Option.bind_eq_some_iff, Option.map_eq_some_iff] at hg
    obtain ⟨xy, hxy, xz, hxz, yz, hyz, rfl⟩ := hg
    exact ⟨_, (setPlane_eq_ok s.factors.xy rfl).2 ⟨xy, hxy, rfl⟩,
      _, (setPlane_eq_ok s.factors.xz rfl).2 ⟨xz, hxz, rfl⟩,
      (setPlane_eq_ok s.factors.yz rfl).2 ⟨yz, hyz, rfl⟩⟩

end PrinterSkew

/-! ## Moves through the transform -/

/-- `GCodeMove` with `PrinterSkew` as its transform, and the last target of `next_transform`. -/
structure SkewedMove (K : Type) where
  gcodeMove : GCodeMove K
  skew : PrinterSkew K
  target : Coord K

namespace SkewedMove

variable (s : SkewedMove K)

/-- `get_position` of `PrinterSkew`. -/
def getPosition : Coord K :=
  s.skew.factors.calcUnskew s.target

/-- `reset_last_position`. -/
def reset : SkewedMove K :=
  { s with gcodeMove := s.gcodeMove.resetLastPosition s.getPosition }

/-- `move` of `PrinterSkew`, if a handler has called it. -/
def moved (issued : Issued K) : Coord K :=
  match issued with
  | .move position _ => s.skew.factors.calcSkew position
  | .reset _ => s.target

/-- A command of `GCodeMove`. If the move raises an error, `taken` says whether `next_transform`
has its target nevertheless. -/
def processCommand (ps : Parsers K) (cmd : GCodeMove.Command) (taken : Bool) : SkewedMove K :=
  match GCodeMove.handler ps cmd
    { s.gcodeMove with issued := .reset s.gcodeMove.lastPosition } with
  | .ok g => { s with gcodeMove := g, target := s.moved g.issued }
  | .error (_, g) =>
    SkewedMove.reset
      { s with gcodeMove := g, target := if taken then s.moved g.issued else s.target }

/-- The end of a command of `PrinterSkew`. -/
def afterSkew (r : PrinterSkew K × Bool) : SkewedMove K :=
  if r.2 then SkewedMove.reset { s with skew := r.1 } else { s with skew := r.1 }

/-- `cmd_SET_SKEW`. -/
def setSkew (m : MathLib K) (ps : Parsers K) (gcmd : Gcmd) : SkewedMove K :=
  match s.skew.cmdSetSkew m ps gcmd with
  | .ok r => s.afterSkew r
  | .error (.command _ skew) => SkewedMove.reset { s with skew := skew }
  | .error (.internal skew) =>
    { s with skew := skew, gcodeMove := { s.gcodeMove with isPrinterReady := false } }

/-- What can happen to the transform. -/
inductive Event where
  | command (cmd : GCodeMove.Command) (taken : Bool)
  | setSkew (gcmd : Gcmd)
  | skewProfile (gcmd : Gcmd)

/-- The commands while the printer is ready, from any position that is in step. -/
def system (m : MathLib K) (ps : Parsers K) : System (SkewedMove K) Event where
  init s := s.gcodeMove.isPrinterReady = true ∧ s.gcodeMove.stopHeating = 0 ∧
    s.gcodeMove.lastPosition = s.getPosition
  next s e :=
    if s.gcodeMove.isPrinterReady then
      match e with
      | .command cmd taken => some (s.processCommand ps cmd taken)
      | .setSkew gcmd => some (s.setSkew m ps gcmd)
      | .skewProfile gcmd => some (s.afterSkew (s.skew.cmdSkewProfile gcmd))
    else none

/-- `last_position` is what `get_position` returns. -/
def InSync : Prop :=
  s.gcodeMove.isPrinterReady = true → s.gcodeMove.lastPosition = s.getPosition

/-- `SET_SKEW` with lengths comes where the new factors correct the position by as much as the old
ones. -/
def Harmless (m : MathLib K) (ps : Parsers K) (s : SkewedMove K) : Event → Prop
  | .setSkew gcmd => gcmd.getInt ps "CLEAR" = .ok 0 →
      ∀ g ∈ PrinterSkew.newFactors m ps gcmd s.skew.factors,
        s.target 1 * (g.xy - s.skew.factors.xy) + s.target 2 * (g.xz - s.skew.factors.xz) = 0 ∧
          s.target 2 * (g.yz - s.skew.factors.yz) = 0
  | _ => True

/-! ### What a command of `GCodeMove` does -/

variable {s : SkewedMove K} {m : MathLib K} {ps : Parsers K} {gcmd : Gcmd}

/-- What the words of `cmd_G1` keep. -/
def SameMove (g g' : GCodeMove K) : Prop :=
  g'.isPrinterReady = g.isPrinterReady ∧ g'.stopHeating = g.stopHeating ∧ g'.issued = g.issued

theorem ensures_moveWord {g₀ g : GCodeMove K} (h : SameMove g₀ g) (axis : String)
    {f : GCodeMove K → K → GCodeMove.Handler K (GCodeMove K)}
    (hf : ∀ v, Ensures (f g v) (SameMove g₀) (GCodeMove.Stays g₀)) :
    Ensures (GCodeMove.moveWord ps gcmd axis g f) (SameMove g₀) (GCodeMove.Stays g₀) := by
  unfold GCodeMove.moveWord
  cases gcmd.word ps axis with
  | none => exact .ok h
  | some word =>
    cases word with
    | none => exact .error ⟨h.1, h.2.1⟩
    | some v => exact hf v

theorem ensures_parseG1 (g : GCodeMove K) :
    Ensures (GCodeMove.parseG1 ps gcmd g) (SameMove g) (GCodeMove.Stays g) := by
  have h : SameMove g g := ⟨rfl, rfl, rfl⟩
  unfold GCodeMove.parseG1
  dsimp only
  refine Ensures.bind (ensures_moveWord h "X" fun _ => ?_) fun g₁ h₁ => ?_
  · exact .ok h
  refine Ensures.bind (ensures_moveWord h₁ "Y" fun _ => ?_) fun g₂ h₂ => ?_
  · exact .ok h₁
  refine Ensures.bind (ensures_moveWord h₂ "Z" fun _ => ?_) fun g₃ h₃ => ?_
  · exact .ok h₂
  refine Ensures.bind (ensures_moveWord h₃ "E" fun _ => ?_) fun g₄ h₄ => ?_
  · exact .ok h₃
  refine ensures_moveWord h₄ "F" fun v => ?_
  split_ifs
  · exact .error ⟨h₄.1, h₄.2.1⟩
  · exact .ok h₄

/-- `cmd_G1` moves, unless the heating is stopped. -/
theorem ensures_cmdG1 {g : GCodeMove K} (hheating : g.stopHeating = 0) (raises : Option String) :
    Ensures (GCodeMove.cmdG1 ps gcmd raises g) (GCodeMove.Moves g) (GCodeMove.Stays g) := by
  unfold GCodeMove.cmdG1
  refine (ensures_parseG1 g).bind fun g' h => ?_
  rw [if_pos (h.2.1.trans hheating)]
  cases raises with
  | none => exact .ok ⟨h.1, h.2.1, .inr ⟨_, rfl⟩⟩
  | some e => exact .error ⟨h.1, h.2.1⟩

/-- Every handler moves to where it leaves the position, or keeps it. -/
theorem ensures_handler (ps : Parsers K) {g : GCodeMove K} (hheating : g.stopHeating = 0)
    (cmd : GCodeMove.Command) :
    Ensures (GCodeMove.handler ps cmd g) (GCodeMove.Moves g) (GCodeMove.Stays g) := by
  by_cases hcmd : ∀ gcmd raises, cmd ≠ .g1 gcmd raises
  · exact GCodeMove.ensures_handler hcmd
  · push Not at hcmd
    obtain ⟨gcmd, raises, rfl⟩ := hcmd
    exact ensures_cmdG1 hheating raises

/-! ### The position stays in step -/

/-- The invariant : no heating is stopped, and the position is in step. -/
structure Synced (s : SkewedMove K) : Prop where
  stopHeating_eq : s.gcodeMove.stopHeating = 0
  inSync : s.InSync

theorem synced_reset (h : s.gcodeMove.stopHeating = 0) : s.reset.Synced := by
  unfold reset GCodeMove.resetLastPosition
  split
  · exact ⟨h, fun _ => rfl⟩
  · next hready => exact ⟨h, fun h => absurd h hready⟩

theorem Synced.processCommand (h : s.Synced) (hready : s.gcodeMove.isPrinterReady = true)
    (cmd : GCodeMove.Command) (taken : Bool) : (s.processCommand ps cmd taken).Synced := by
  have hhandler := ensures_handler ps
    (g := { s.gcodeMove with issued := .reset s.gcodeMove.lastPosition }) h.stopHeating_eq cmd
  unfold SkewedMove.processCommand
  cases hr : GCodeMove.handler ps cmd
    { s.gcodeMove with issued := .reset s.gcodeMove.lastPosition } with
  | ok g =>
    rw [hr] at hhandler
    obtain ⟨-, hheating, ⟨hlast, hissued⟩ | ⟨speed, hissued⟩⟩ := hhandler
    · refine ⟨hheating.trans h.stopHeating_eq, fun _ => ?_⟩
      show g.lastPosition = s.skew.factors.calcUnskew (s.moved g.issued)
      rw [hissued, hlast]
      exact h.inSync hready
    · refine ⟨hheating.trans h.stopHeating_eq, fun _ => ?_⟩
      show g.lastPosition = s.skew.factors.calcUnskew (s.moved g.issued)
      rw [hissued]
      exact (s.skew.factors.calcUnskew_calcSkew g.lastPosition).symm
  | error e =>
    rw [hr] at hhandler
    exact synced_reset (hhandler.2.trans h.stopHeating_eq)

theorem Synced.afterSkew_reset (h : s.Synced) (skew : PrinterSkew K) :
    (s.afterSkew (skew, true)).Synced :=
  synced_reset (s := { s with skew := skew }) h.stopHeating_eq

/-- Only the factors matter to the position. -/
theorem Synced.skew (h : s.Synced) {skew : PrinterSkew K}
    (hfactors : skew.factors.calcUnskew s.target = s.getPosition) :
    ({ s with skew := skew } : SkewedMove K).Synced :=
  ⟨h.stopHeating_eq, fun hready => (h.inSync hready).trans hfactors.symm⟩

theorem Synced.skewProfile (h : s.Synced) (gcmd : Gcmd) :
    (s.afterSkew (s.skew.cmdSkewProfile gcmd)).Synced := by
  unfold PrinterSkew.cmdSkewProfile
  split
  · split
    · exact h
    · exact h.afterSkew_reset _
  · exact h.skew rfl
  · exact h.skew rfl
  · exact h

/-- `SET_SKEW` keeps the position in step just where it is harmless. -/
theorem Synced.setSkew_iff (h : s.Synced) (hready : s.gcodeMove.isPrinterReady = true) :
    (s.setSkew m ps gcmd).Synced ↔ Harmless m ps s (.setSkew gcmd) := by
  have hnone : ∀ e, s.skew.setPlanes m ps gcmd = .error e →
      ∀ g, g ∉ PrinterSkew.newFactors m ps gcmd s.skew.factors := by
    intro e he g hg
    have hok := PrinterSkew.setPlanes_eq_ok.2 ⟨g, hg, rfl⟩
    rw [he] at hok
    cases hok
  show _ ↔ (gcmd.getInt ps "CLEAR" = .ok 0 →
    ∀ g ∈ PrinterSkew.newFactors m ps gcmd s.skew.factors, _)
  unfold SkewedMove.setSkew PrinterSkew.cmdSetSkew
  cases hclear : gcmd.getInt ps "CLEAR" with
  | error message =>
    exact iff_of_true (synced_reset (s := { s with skew := s.skew }) h.stopHeating_eq)
      fun h => absurd h (by simp)
  | ok clear =>
    by_cases hzero : clear = 0
    · subst hzero
      simp only [ne_eq, not_true_eq_false, if_false]
      cases hplanes : s.skew.setPlanes m ps gcmd with
      | error e =>
        refine iff_of_true ?_ fun _ g hg => absurd hg (hnone e hplanes g)
        cases e with
        | command message skew =>
          exact synced_reset (s := { s with skew := skew }) h.stopHeating_eq
        | internal skew => exact ⟨h.stopHeating_eq, fun hready => nomatch hready⟩
      | ok t =>
        obtain ⟨g, hg, rfl⟩ := PrinterSkew.setPlanes_eq_ok.1 hplanes
        have hiff := s.skew.factors.calcUnskew_eq_iff s.target g
        constructor
        · intro hsynced _ g' hg'
          obtain rfl := Option.mem_unique hg hg'
          exact hiff.1 ((hsynced.inSync hready).symm.trans (h.inSync hready))
        · intro hharmless
          exact h.skew (hiff.2 (hharmless trivial g hg))
    · simp only [ne_eq, hzero, not_false_eq_true, if_true]
      exact iff_of_true (h.afterSkew_reset _) fun h => absurd (Except.ok.inj h) hzero

theorem Synced.next {e : Event} {t : SkewedMove K} (h : s.Synced) (hharmless : Harmless m ps s e)
    (hnext : (system m ps).next s e = some t) : t.Synced := by
  obtain ⟨hready, hnext⟩ := Option.ite_none_right_eq_some.1 hnext
  cases e with
  | command cmd taken =>
    obtain rfl := Option.some_inj.1 hnext
    exact h.processCommand hready cmd taken
  | setSkew gcmd =>
    obtain rfl := Option.some_inj.1 hnext
    exact (h.setSkew_iff hready).2 hharmless
  | skewProfile gcmd =>
    obtain rfl := Option.some_inj.1 hnext
    exact h.skewProfile gcmd

theorem synced_of_reachable (h : (system m ps).ReachableBy (Harmless m ps) s) : s.Synced := by
  refine h.invariant (fun s hinit => ?_) fun _ _ _ hs hC hnext => hs.next hC hnext
  exact ⟨hinit.2.1, fun _ => hinit.2.2⟩

/-! ### The next G1 -/

/-- The word of an axis. -/
def axisWord : Fin 4 → String :=
  ![ "X", "Y", "Z", "E"]

/-- A G1 that is not refused moves no axis that it does not mention. -/
theorem Synced.getPosition_g1 (h : s.Synced) (hready : s.gcodeMove.isPrinterReady = true)
    (hrefused : ¬ GCodeMove.Refused ps gcmd) (taken : Bool) {i : Fin 4}
    (hword : gcmd.params (axisWord i) = none) :
    (s.processCommand ps (.g1 gcmd none) taken).getPosition i = s.getPosition i := by
  let g₀ : GCodeMove K := { s.gcodeMove with issued := .reset s.gcodeMove.lastPosition }
  have hparse : GCodeMove.parseG1 ps gcmd g₀ = .ok _ :=
    GCodeMove.parseG1_eq_ok_iff.2 ⟨hrefused, rfl⟩
  have hmove := (GCodeMove.cmdG1_of_parseG1 none hparse).2 fun hsup => hsup.1 h.stopHeating_eq
  have hposition : (s.processCommand ps (.g1 gcmd none) taken).getPosition =
      GCodeMove.wordsPosition ps gcmd g₀ := by
    unfold SkewedMove.processCommand
    rw [GCodeMove.handler, hmove]
    exact s.skew.factors.calcUnskew_calcSkew _
  have hlast : g₀.lastPosition i = s.getPosition i := congrFun (h.inSync hready) i
  rw [hposition, ← hlast]
  fin_cases i <;> simp [axisWord] at hword <;>
    simp [GCodeMove.wordsPosition, GCodeMove.wordTarget, Gcmd.word, hword]

theorem stopHeating_reset (s : SkewedMove K) :
    s.reset.gcodeMove.stopHeating = s.gcodeMove.stopHeating := by
  unfold reset GCodeMove.resetLastPosition
  split <;> rfl

theorem stopHeating_setSkew (s : SkewedMove K) (gcmd : Gcmd) :
    (s.setSkew m ps gcmd).gcodeMove.stopHeating = s.gcodeMove.stopHeating := by
  unfold setSkew
  split
  · unfold afterSkew
    split
    · exact stopHeating_reset _
    · rfl
  · exact stopHeating_reset _
  · rfl

/-- In runs whose `SET_SKEW` with lengths come where they are harmless, `last_position` is what
`get_position` returns, and the next G1 moves no axis that it does not mention ; and a `SET_SKEW`
keeps the position in step just where it is harmless. -/
theorem inSync_of_reachable (h : (system m ps).ReachableBy (Harmless m ps) s) :
    s.InSync ∧ (s.gcodeMove.isPrinterReady = true →
      (∀ gcmd, ¬ GCodeMove.Refused ps gcmd → ∀ taken i, gcmd.params (axisWord i) = none →
        (s.processCommand ps (.g1 gcmd none) taken).getPosition i = s.getPosition i) ∧
      ∀ gcmd, (s.setSkew m ps gcmd).InSync ↔ Harmless m ps s (.setSkew gcmd)) := by
  have hsynced := synced_of_reachable h
  refine ⟨hsynced.inSync, fun hready => ⟨fun gcmd hrefused taken i hword =>
    hsynced.getPosition_g1 hready hrefused taken hword, fun gcmd => ?_⟩⟩
  rw [← hsynced.setSkew_iff hready]
  exact ⟨fun h => ⟨(s.stopHeating_setSkew gcmd).trans hsynced.stopHeating_eq, h⟩, fun h => h.inSync⟩

/-! ### A profile and a measurement -/

/-- Functions of `math` that are not called. -/
def noMath : MathLib ℚ :=
  ⟨id, id, id, 0⟩

/-- A printer at the origin with one profile. -/
def withProfile : SkewedMove ℚ where
  gcodeMove := GCodeMove.atOrigin
  skew := ⟨⟨0, 0, 0⟩, fun name => if name = "a" then some ⟨1 / 2, 0, 0⟩ else none⟩
  target := 0

/-- `SKEW_PROFILE LOAD=a`. -/
def loadProfile : Gcmd where
  commandline := "SKEW_PROFILE LOAD=a"
  params name := if name = "LOAD" then some "a" else none

theorem inSync_loadProfile :
    (withProfile.afterSkew (withProfile.skew.cmdSkewProfile loadProfile)).InSync := by
  have hinit : (system noMath GCodeMove.tenParsers).ReachableBy
      (Harmless noMath GCodeMove.tenParsers) withProfile := .init ⟨rfl, rfl, by decide +kernel⟩
  exact (inSync_of_reachable (hinit.step (a := .skewProfile loadProfile) trivial rfl)).1

/-- The functions of `math`. -/
noncomputable def realMath : MathLib ℝ :=
  ⟨Real.sqrt, Real.arccos, Real.tan, Real.pi⟩

/-- The parsers on the numbers of the command below. -/
noncomputable def lengthParsers : Parsers ℝ where
  float w := if w = "9" then some 9 else if w = "7" then some 7 else none
  int _ := none

/-- `SET_SKEW XY=9,7,7`. -/
def setSkewXy : Gcmd where
  commandline := "SET_SKEW XY=9,7,7"
  params name := if name = "XY" then some "9,7,7" else none

/-- A printer that is ready at y = 10, without a correction. -/
noncomputable def atTen : SkewedMove ℝ where
  gcodeMove :=
    { isPrinterReady := true, stopHeating := 0, absoluteCoord := true, absoluteExtrude := true
      basePosition := 0, lastPosition := ![0, 10, 0, 0], homingPosition := 0, speed := 25
      speedFactor := 1 / 60, extrudeFactor := 1, savedStates := fun _ => none, issued := .reset 0 }
  skew := ⟨⟨0, 0, 0⟩, fun _ => none⟩
  target := ![0, 10, 0, 0]

theorem calcSkewFactor_setSkewXy :
    ∃ v, calcSkewFactor realMath 9 7 7 = some v ∧ v ≠ 0 := by
  have hsqrt : Real.sqrt (2 * 9 * 9 + 2 * 7 * 7 - 4 * 7 * 7) = 8 := by
    rw [show (2 * 9 * 9 + 2 * 7 * 7 - 4 * 7 * 7 : ℝ) = 8 ^ 2 by norm_num]
    exact Real.sqrt_sq (by norm_num)
  have hroot : Real.sqrt (1 - (2 / 7) ^ 2) ≠ 0 :=
    (Real.sqrt_pos.2 (by norm_num)).ne'
  refine ⟨Real.tan (Real.pi / 2 - Real.arccos (2 / 7)), ?_, ?_⟩
  · simp only [calcSkewFactor, realMath, hsqrt]
    norm_num
  · rw [Real.tan_pi_div_two_sub, Real.tan_arccos]
    exact inv_ne_zero (div_ne_zero hroot (by norm_num))

theorem parseLengths_setSkewXy :
    PrinterSkew.parseLengths lengthParsers "9,7,7" = some (9, 7, 7) := by
  have hsplit : PrinterSkew.splitTwice (Text.strip "9,7,7".toList) = [['9'], ['7'], ['7']] := by
    decide +kernel
  have hnine : String.ofList (Text.strip ['9']) = "9" := by decide +kernel
  have hseven : String.ofList (Text.strip ['7']) = "7" := by decide +kernel
  rw [PrinterSkew.parseLengths, hsplit]
  simp [hnine, hseven, lengthParsers]

/-- `SET_SKEW` with lengths changes the correction, and does not read the position again. -/
theorem not_inSync_setSkew : ¬ ∀ s : SkewedMove ℝ,
    (system realMath lengthParsers).Reachable s → s.InSync := by
  intro h
  have hinit : (system realMath lengthParsers).Reachable atTen := by
    refine .init ⟨rfl, rfl, ?_⟩
    ext i
    fin_cases i <;> simp [atTen, getPosition, SkewFactors.calcUnskew]
  have hsync := h _ (hinit.step trivial (a := .setSkew setSkewXy) rfl)
  obtain ⟨v, hv, hne⟩ := calcSkewFactor_setSkewXy
  have hfactors : (⟨v, 0, 0⟩ : SkewFactors ℝ) ∈
      PrinterSkew.newFactors realMath lengthParsers setSkewXy atTen.skew.factors := by
    simp [PrinterSkew.newFactors, PrinterSkew.newFactor, atTen, setSkewXy, parseLengths_setSkewXy,
      hv]
  have hsynced : (atTen.setSkew realMath lengthParsers setSkewXy).Synced :=
    ⟨(atTen.stopHeating_setSkew setSkewXy).trans rfl, hsync⟩
  have hharmless := (Synced.setSkew_iff ⟨rfl, h _ hinit⟩ rfl).1 hsynced
  have hzero := (hharmless rfl _ hfactors).1
  simp [atTen, hne] at hzero

end SkewedMove

end Thinker
