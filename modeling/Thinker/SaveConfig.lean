import Thinker.ConfigFile

/-!
# SAVE_CONFIG and the next start

What `SAVE_CONFIG` writes is read back by `_find_autosave_data` if the regular part has no line that
looks like one of the block. A block that has been modified becomes part of the regular part, so
that the file that is written over it is not read back (`not_roundTrip_modified`).
-/

namespace Thinker

open Text

/-! ## The lines that are commented out -/

/-- The section of the next line, for the lines above it, the nearest first. -/
def sectionAbove : List Text → Option Text
  | [] => none
  | line :: above =>
    match lineKind line with
    | .header name => some name
    | _ => sectionAbove above

/-- The option that the next line is about if it continues the lines above it. -/
def optionAbove : List Text → Option (Option Text × Text)
  | [] => none
  | line :: above =>
    match lineKind line with
    | .blank => optionAbove above
    | .continuation => optionAbove above
    | .header _ => none
    | .option field => some (sectionAbove above, field)

/-- The line is one of an option that is defined in the config. -/
def Defined (config : FileConfig) (above : List Text) (line : Text) : Prop :=
  lineKind line ≠ .blank ∧
    (optionAbove (line :: above)).any (fun e => config.hasOption e.1 e.2) = true

instance (config : FileConfig) (above : List Text) (line : Text) :
    Decidable (Defined config above line) :=
  inferInstanceAs (Decidable (_ ∧ _))

/-- The lines, of which those of defined options are commented out. -/
def commentOut (config : FileConfig) : List Text → List Text → List Text
  | _, [] => []
  | above, line :: lines =>
    (if Defined config above line then '#' :: line else line) ::
      commentOut config (line :: above) lines

/-- The loop knows the section, and whether the option above is defined. -/
theorem stripLines_eq (config : FileConfig) (above lines : List Text) :
    stripLines config (sectionAbove above)
      ((optionAbove above).any fun e => config.hasOption e.1 e.2) lines =
      commentOut config above lines := by
  induction lines generalizing above with
  | nil => rfl
  | cons line lines ih =>
    rw [stripLines, commentOut, ← ih]
    obtain ⟨kind, hkind⟩ : ∃ kind, lineKind line = kind := ⟨_, rfl⟩
    cases kind with
    | blank => simp [Defined, sectionAbove, optionAbove, hkind]
    | continuation => simp [Defined, sectionAbove, optionAbove, hkind]
    | header name => simp [Defined, sectionAbove, optionAbove, hkind]
    | option field =>
      cases hdefined : config.hasOption (sectionAbove above) field <;>
        simp [Defined, sectionAbove, optionAbove, hkind, hdefined]

/-- The lines of options that are defined in the config are commented out, and no others. -/
theorem stripDuplicates_eq (data : Text) (config : FileConfig) :
    stripDuplicates data config = joinLines (commentOut config [] (data.splitOn '\n')) := by
  rw [stripDuplicates, ← stripLines_eq]
  rfl

theorem FileConfig.hasOption_nil (config : FileConfig) (section_ : Option Text) :
    config.hasOption section_ [] = false := by
  have hdefaults : config.defaults.any (·.1 = []) = false :=
    List.any_eq_false.2 fun e he => by simpa using config.named_defaults e he
  simp only [hasOption, optionxform, List.map_nil, hdefaults]
  cases section_ with
  | none => rfl
  | some name =>
    dsimp only
    split_ifs
    · rfl
    · cases hlookup : config.sections.lookup name with
      | none => rfl
      | some options =>
        have hmem : (name, options) ∈ config.sections := by
          obtain ⟨l₁, l₂, hsplit, -⟩ := List.lookup_eq_some_iff.1 hlookup
          rw [hsplit]
          simp
        exact (Bool.or_false _).trans
          (List.any_eq_false.2 fun e he => by simpa using config.named _ hmem e he)

/-- A line that is not blank without its comment begins with the same character as this. -/
theorem cons_of_lineKind {line : Text} (h : lineKind line ≠ .blank) :
    ∃ c t prunedLine, line = c :: t ∧ Visible line ∧ lineKind line =
      if isSpace c then .continuation
      else if c = '[' then .header (strip (List.dropLast prunedLine))
      else .option ((c :: prunedLine).takeWhile isWord) := by
  unfold lineKind at h ⊢
  cases hpruned : rstrip (line.takeWhile fun c => c ≠ '#' ∧ c ≠ ';') with
  | nil => rw [hpruned] at h; exact absurd rfl h
  | cons c prunedLine =>
    have hvisible : Visible (line.takeWhile fun c => c ≠ '#' ∧ c ≠ ';') := by
      by_contra hnot
      rw [rstrip_eq_nil_iff.2 hnot] at hpruned
      cases hpruned
    obtain ⟨d, hd, hspace⟩ := hvisible
    obtain ⟨t, ht⟩ : c :: prunedLine <+: line :=
      hpruned ▸ (isPrefix_rstrip _).trans (List.takeWhile_prefix _)
    exact ⟨c, prunedLine ++ t, prunedLine, ht.symm, ⟨d, (List.takeWhile_prefix _).subset hd, hspace⟩,
      rfl⟩

/-- A line of a defined option begins with whitespace or with the name of the option. -/
theorem Defined.cons {config : FileConfig} {above : List Text} {line : Text}
    (h : Defined config above line) :
    Visible line ∧ ∃ c t, line = c :: t ∧ (isSpace c = true ∨ isWord c = true) := by
  obtain ⟨hblank, hany⟩ := h
  obtain ⟨c, t, prunedLine, hline, hvisible, hkind⟩ := cons_of_lineKind hblank
  refine ⟨hvisible, c, t, hline, ?_⟩
  by_cases hspace : isSpace c = true
  · exact .inl hspace
  · right
    rw [if_neg hspace] at hkind
    rw [optionAbove] at hany
    split_ifs at hkind
    · rw [hkind] at hany
      cases hany
    · by_contra hword
      rw [hkind, List.takeWhile_cons_of_neg hword] at hany
      have hnone := config.hasOption_nil (sectionAbove above)
      rw [show config.hasOption (sectionAbove above) [] = true from hany] at hnone
      cases hnone

/-- The line, or the line commented out if it cannot be one of the block. -/
def KeptOrCommented (line line' : Text) : Prop :=
  line' = line ∨ line' = '#' :: line ∧ Visible line ∧
    ∃ c t, line = c :: t ∧ (isSpace c = true ∨ isWord c = true)

theorem forall₂_commentOut (config : FileConfig) (above lines : List Text) :
    List.Forall₂ KeptOrCommented lines (commentOut config above lines) := by
  induction lines generalizing above with
  | nil => exact .nil
  | cons line lines ih =>
    refine .cons ?_ (ih _)
    split_ifs with hdefined
    · exact .inr ⟨rfl, hdefined.cons⟩
    · exact .inl rfl

namespace KeptOrCommented

variable {line line' : Text}

theorem visible_iff (h : KeptOrCommented line line') : Visible line ↔ Visible line' := by
  rcases h with rfl | ⟨rfl, hvisible, -⟩
  · exact Iff.rfl
  · exact iff_of_true hvisible ⟨'#', List.mem_cons_self, rfl⟩

/-- A line of the block stays as it is. -/
theorem eq_of_prefix (h : KeptOrCommented line line')
    (hpre : linePrefix <+: line ∨ linePrefix <+: line') : line' = line := by
  rcases h with rfl | ⟨rfl, -, c, t, rfl, hc⟩
  · rfl
  · have hnot : isSpace '#' = false ∧ isWord '#' = false ∧ isSpace '*' = false ∧
        isWord '*' = false := by decide
    obtain ⟨h₁, h₂, h₃, h₄⟩ := hnot
    rcases hpre with hpre | hpre
    · obtain ⟨rfl, -⟩ := List.cons_prefix_cons.1 hpre
      rw [h₁, h₂] at hc
      simp at hc
    · obtain ⟨rfl, -⟩ := List.cons_prefix_cons.1 (List.cons_prefix_cons.1 hpre).2
      rw [h₃, h₄] at hc
      simp at hc

theorem not_mem {c : Char} (h : KeptOrCommented line line') (hc : c ∉ line) (hne : c ≠ '#') :
    c ∉ line' := by
  rcases h with rfl | ⟨rfl, -⟩
  · exact hc
  · exact not_or.2 ⟨hne, hc⟩ ∘ List.mem_cons.1

end KeptOrCommented

/-! ## The regular part -/

theorem forall_mem_of_forall₂ {α β : Type*} {R : α → β → Prop} {P : α → Prop} {Q : β → Prop}
    {l : List α} {l' : List β} (h : List.Forall₂ R l l') (hPQ : ∀ a b, R a b → P a → Q b)
    (hl : ∀ a ∈ l, P a) : ∀ b ∈ l', Q b := by
  induction h with
  | nil => exact nofun
  | cons hab _ ih =>
    obtain ⟨ha, hl⟩ := List.forall_mem_cons.1 hl
    exact List.forall_mem_cons.2 ⟨hPQ _ _ hab ha, ih hl⟩

theorem not_mem_commentOut {config : FileConfig} {lines : List Text} {c : Char} (hne : c ≠ '#')
    (h : ∀ l ∈ lines, c ∉ l) (above : List Text) : ∀ l ∈ commentOut config above lines, c ∉ l :=
  forall_mem_of_forall₂ (forall₂_commentOut config above lines)
    (fun _ _ hkept hl => hkept.not_mem hl hne) h

theorem splitOn_stripDuplicates (data : Text) (config : FileConfig) :
    (stripDuplicates data config).splitOn '\n' = commentOut config [] (data.splitOn '\n') := by
  have hplain : ∀ l ∈ commentOut config [] (data.splitOn '\n'), '\n' ∉ l :=
    not_mem_commentOut (by decide) (terminated_splitOn data).2 []
  rw [stripDuplicates_eq]
  refine List.splitOn_intercalate '\n' hplain fun hnil => ?_
  obtain ⟨l, ls, hls⟩ := List.exists_cons_of_ne_nil (List.splitOn_ne_nil '\n' data)
  rw [hls] at hnil
  cases hnil

/-- The lines that look like those of the block stay in the regular part. -/
theorem infix_stripDuplicates_iff (data : Text) (config : FileConfig) :
    '\n' :: linePrefix <:+: rstrip (stripDuplicates data config) ↔
      '\n' :: linePrefix <:+: rstrip data := by
  have hiff := fun t => infix_rstrip_iff_marked (m := ['#', '*', '#']) (t := t) (c := ' ') rfl
    (by decide)
  rw [show linePrefix = ['#', '*', '#'] ++ [' '] from rfl, hiff, hiff, splitOn_stripDuplicates]
  obtain ⟨l, ls, hls⟩ := List.exists_cons_of_ne_nil (List.splitOn_ne_nil '\n' data)
  rw [hls]
  exact (marked_iff_of_forall₂ (fun _ _ h => h.visible_iff) (fun _ _ h => h.eq_of_prefix)
    (forall₂_commentOut config [l] ls)).symm

theorem not_mem_stripDuplicates {data : Text} (h : '\r' ∉ data) (config : FileConfig) :
    '\r' ∉ stripDuplicates data config := by
  rw [stripDuplicates_eq]
  intro hmem
  rcases mem_joinLines hmem with hnewline | ⟨l, hl, hc⟩
  · exact absurd hnewline (by decide)
  · exact not_mem_commentOut (by decide) (fun l hl hc => h (mem_of_mem_splitOn hl hc)) [] l hl hc

/-! ## Newlines -/

theorem not_mem_readConfigFile (content : Text) : '\r' ∉ readConfigFile content := by
  fun_induction readConfigFile content with
  | case1 => exact List.not_mem_nil
  | case2 t ih => simpa using ih
  | case3 t _ ih => simpa using ih
  | case4 c t _ hc ih => exact not_or.2 ⟨Ne.symm hc, ih⟩ ∘ List.mem_cons.1

theorem readConfigFile_of_not_mem {content : Text} (h : '\r' ∉ content) :
    readConfigFile content = content := by
  fun_induction readConfigFile content with
  | case1 => rfl
  | case2 t ih => simp at h
  | case3 t _ ih => simp at h
  | case4 c t _ _ ih => rw [ih fun hmem => h (List.mem_cons_of_mem c hmem)]

/-! ## The block -/

/-- A line of the block. -/
theorem strip_linePrefix (l : Text) :
    strip (linePrefix ++ l) = if rstrip l = [] then linePrefix.take 3 else linePrefix ++ rstrip l := by
  have hfirst : ['#'] <+: linePrefix ++ l := List.prefix_append ['#'] _
  rw [strip_eq_rstrip rfl hfirst]
  split_ifs with hl
  · have hspace : ¬ Visible (' ' :: l) := by
      rw [← List.singleton_append, visible_append, not_or]
      exact ⟨by simp [Visible]; rfl, rstrip_eq_nil_iff.1 hl⟩
    rw [show linePrefix ++ l = linePrefix.take 3 ++ (' ' :: l) from rfl,
      rstrip_append_of_not_visible hspace]
    decide
  · exact rstrip_append _ (not_not.1 (mt rstrip_eq_nil_iff.2 hl))

theorem prefixed_strip (l : Text) : Prefixed (strip (linePrefix ++ l)) := by
  rw [strip_linePrefix]
  split_ifs
  · decide
  · exact ⟨(List.take_prefix 3 linePrefix).trans (List.prefix_append _ _),
      fun _ => List.prefix_append _ _⟩

theorem drop_strip (l : Text) : (strip (linePrefix ++ l)).drop 4 = rstrip l := by
  rw [strip_linePrefix]
  split_ifs with hl
  · rw [hl]
    rfl
  · rfl

theorem visible_strip (l : Text) : Visible (strip (linePrefix ++ l)) := by
  obtain ⟨t, ht⟩ := (prefixed_strip l).1
  rw [← ht]
  exact ⟨'#', List.mem_cons_self, rfl⟩

/-- The lines of the block behind the header. -/
def blockLines (autosave : FileConfig) : List Text :=
  ((buildConfigString autosave).splitOn '\n').map fun l => strip (linePrefix ++ l)

/-- The saved text. -/
def savedText (autosave : FileConfig) : Text :=
  joinLines (((buildConfigString autosave).splitOn '\n').map rstrip)

variable (autosave : FileConfig)

theorem blockLines_ne_nil : blockLines autosave ≠ [] :=
  mt List.map_eq_nil_iff.1 (List.splitOn_ne_nil '\n' _)

theorem autosaveBlock_eq : autosaveBlock autosave =
    '\n' :: (autosaveHeader ++ (joinLines (blockLines autosave) ++ ['\n'])) := by
  have hheader : autosaveHeader = rstrip autosaveHeader ++ ['\n'] := by decide +kernel
  obtain ⟨l, ls, hls⟩ := List.exists_cons_of_ne_nil (blockLines_ne_nil autosave)
  have hconcat := joinLines_concat (blockLines_ne_nil autosave) []
  rw [hls] at hconcat
  show joinLines (('\n' :: rstrip autosaveHeader) :: (blockLines autosave ++ [[]])) = _
  rw [hls, List.cons_append, joinLines_cons_cons, ← List.cons_append, hconcat, List.cons_append,
    List.append_cons, ← hheader]

theorem newline_not_mem_blockLines : ∀ l ∈ blockLines autosave, '\n' ∉ l := by
  intro l hl
  obtain ⟨l, hsplit, rfl⟩ := List.mem_map.1 hl
  have hplain := (terminated_splitOn (buildConfigString autosave)).2 l hsplit
  rw [strip_linePrefix]
  split_ifs
  · decide
  · intro hmem
    rcases List.mem_append.1 hmem with h | h
    · exact absurd h (by decide)
    · exact hplain ((isPrefix_rstrip l).subset h)

theorem strip_blockLines :
    strip (joinLines (blockLines autosave) ++ ['\n']) = joinLines (blockLines autosave) := by
  have hnewline : ¬ Visible ['\n'] := by simp [Visible]; rfl
  obtain ⟨l, ls, hls⟩ := List.exists_cons_of_ne_nil (List.splitOn_ne_nil '\n'
    (buildConfigString autosave))
  have hfirst : ['#'] <+: joinLines (blockLines autosave) := by
    obtain ⟨t, ht⟩ := (prefixed_strip l).1
    rw [blockLines, hls, List.map_cons, ← ht, joinLines_append_cons]
    exact List.prefix_append ['#'] _
  rw [strip_eq_rstrip rfl (hfirst.trans (List.prefix_append _ _)),
    rstrip_append_of_not_visible hnewline]
  rcases List.eq_nil_or_concat ((buildConfigString autosave).splitOn '\n') with hnil | ⟨ls, l, hls⟩
  · exact absurd hnil (List.splitOn_ne_nil '\n' _)
  · rw [blockLines, hls, List.concat_eq_append, List.map_append, List.map_singleton,
      rstrip_joinLines_concat _ (visible_strip l), rstrip_strip]

theorem splitOn_blockLines : (joinLines (blockLines autosave)).splitOn '\n' = blockLines autosave :=
  List.splitOn_intercalate '\n' (newline_not_mem_blockLines autosave) (blockLines_ne_nil autosave)

theorem map_drop_blockLines : (blockLines autosave).map (List.drop 4) =
    ((buildConfigString autosave).splitOn '\n').map rstrip := by
  rw [blockLines, List.map_map]
  exact List.map_congr_left fun l _ => drop_strip l

theorem prefixed_blockLines : ∀ l ∈ blockLines autosave, Prefixed l := by
  intro l hl
  obtain ⟨l, -, rfl⟩ := List.mem_map.1 hl
  exact prefixed_strip l

theorem joinLines_savedLines :
    joinLines ([] :: (((buildConfigString autosave).splitOn '\n').map rstrip ++ [[]])) =
      '\n' :: (savedText autosave ++ ['\n']) := by
  obtain ⟨l, ls, hls⟩ := List.exists_cons_of_ne_nil (List.splitOn_ne_nil '\n'
    (buildConfigString autosave))
  have hconcat := joinLines_concat (List.cons_ne_nil (rstrip l) (ls.map rstrip)) []
  rw [savedText, hls, List.map_cons, ← hconcat, List.cons_append, joinLines_cons_cons]
  rfl

/-- What is written behind a regular part without lines of a block is read back. -/
theorem findAutosaveData_written {regular : Text} (h : ¬ '\n' :: linePrefix <:+: regular) :
    findAutosaveData (regular ++ autosaveBlock autosave) =
      (regular ++ ['\n'], '\n' :: (savedText autosave ++ ['\n'])) := by
  have hnewline : '\n' ∉ linePrefix := by decide
  have hregular : ¬ '\n' :: linePrefix <:+: regular ++ ['\n'] := by
    intro hin
    rcases infix_append_cons hnewline hin with hin | hin
    · exact h hin
    · exact absurd hin.length_le (by decide)
  have hdata : regular ++ autosaveBlock autosave = regular ++ ['\n'] ++
      (autosaveHeader ++ (joinLines (blockLines autosave) ++ ['\n'])) := by
    rw [autosaveBlock_eq, List.append_cons]
  have hfind := find_append (u := joinLines (blockLines autosave) ++ ['\n']) hnewline
    (by decide +kernel : '\n' :: linePrefix <+: autosaveHeader) hregular
  have hdrop : (regular ++ ['\n'] ++ (autosaveHeader ++
      (joinLines (blockLines autosave) ++ ['\n']))).drop
      ((regular ++ ['\n']).length + autosaveHeader.length) =
        joinLines (blockLines autosave) ++ ['\n'] := by
    rw [← List.drop_drop, List.drop_left, List.drop_left]
  rw [hdata]
  unfold findAutosaveData
  rw [hfind]
  dsimp only
  rw [List.take_left, hdrop, strip_blockLines, if_neg hregular, splitOn_blockLines,
    map_drop_blockLines, joinLines_savedLines, if_neg]
  rintro ⟨-, l, hl, hnot⟩
  exact hnot (prefixed_blockLines autosave l hl)

theorem prefix_write (h : autosave.sections ≠ []) : ['['] <+: autosave.write := by
  unfold FileConfig.write
  split_ifs
  · obtain ⟨s, ss, hs⟩ := List.exists_cons_of_ne_nil h
    rw [hs, List.nil_append, List.flatMap_cons]
    exact List.prefix_append ['['] _
  · exact List.prefix_append ['['] _

/-- The saved text begins with a section, and no whitespace is around it. -/
theorem savedText_spec (h : autosave.sections ≠ []) : ['['] <+: savedText autosave ∧
    rstrip (savedText autosave) = savedText autosave := by
  have hconfig : ['['] <+: buildConfigString autosave := by
    rw [buildConfigString, strip_eq_rstrip rfl (prefix_write autosave h)]
    exact prefix_rstrip rfl (prefix_write autosave h)
  exact rstrip_joinLines_map rfl hconfig (rstrip_strip _)

theorem strip_newlines_savedText (h : autosave.sections ≠ []) :
    strip ('\n' :: (savedText autosave ++ ['\n'])) = savedText autosave := by
  obtain ⟨hfirst, hlast⟩ := savedText_spec autosave h
  have hnewline : ¬ Visible ['\n'] := by simp [Visible]; rfl
  have hstrip := strip_eq_rstrip rfl (hfirst.trans (List.prefix_append _ ['\n']))
  rw [strip_eq, List.dropWhile_cons_of_pos rfl, ← strip_eq, hstrip,
    rstrip_append_of_not_visible hnewline, hlast]

theorem not_mem_autosaveBlock (h : '\r' ∉ savedText autosave) : '\r' ∉ autosaveBlock autosave := by
  have hblock : '\r' ∉ joinLines (blockLines autosave) := by
    intro hmem
    rcases mem_joinLines hmem with hnewline | ⟨l, hl, hc⟩
    · exact absurd hnewline (by decide)
    obtain ⟨l, hsplit, rfl⟩ := List.mem_map.1 hl
    rw [strip_linePrefix] at hc
    split_ifs at hc
    · exact absurd hc (by decide)
    · rcases List.mem_append.1 hc with hc | hc
      · exact absurd hc (by decide)
      · refine h (mem_of_mem_joinLines (List.mem_map_of_mem hsplit) hc)
  rw [autosaveBlock_eq]
  simp only [List.mem_cons, List.mem_append, List.not_mem_nil, or_false, not_or]
  exact ⟨by decide, by decide +kernel, hblock, by decide⟩

/-! ## The round trip -/

/-- The file is not judged corrupted : no line of its regular part looks like one of the block,
other than the first and those with nothing behind them, and the block is not modified. -/
def Intact (data : Text) : Prop :=
  match find autosaveHeader data with
  | none => ¬ '\n' :: linePrefix <:+: rstrip data
  | some pos => ¬ '\n' :: linePrefix <:+: data.take pos ∧
    (strip (data.drop (pos + autosaveHeader.length)) = [] ∨
      ∀ l ∈ (strip (data.drop (pos + autosaveHeader.length))).splitOn '\n', Prefixed l)

theorem intact_iff (data : Text) :
    Intact data ↔ ¬ '\n' :: linePrefix <:+: rstrip (findAutosaveData data).1 := by
  unfold Intact findAutosaveData
  cases hfind : find autosaveHeader data with
  | none =>
    dsimp only
    split_ifs <;> rfl
  | some pos =>
    have hdata : '\n' :: linePrefix <:+: rstrip data := by
      obtain ⟨u, hu⟩ := prefix_of_find_eq_some hfind
      have hiff := infix_rstrip_iff (m := ['\n', '#', '*', '#']) (t := data) (c := ' ') rfl
      refine hiff.2 ⟨data.take pos, autosaveHeader.drop 5 ++ u, ?_, ?_⟩
      · have hheader : ['\n', '#', '*', '#'] ++ [' '] ++ autosaveHeader.drop 5 = autosaveHeader := by
          decide +kernel
        rw [List.append_assoc, ← List.append_assoc _ _ u, hheader, hu, List.take_append_drop]
      · exact visible_append.2 (.inl ⟨'<', by decide +kernel, rfl⟩)
    dsimp only
    split_ifs with hregular hblock
    · exact iff_of_false (fun h => h.1 hregular) (fun h => h hdata)
    · refine iff_of_false (fun h => ?_) (fun h => h hdata)
      obtain ⟨hne, l, hl, hnot⟩ := hblock
      rcases h.2 with hnil | hall
      · exact hne hnil
      · exact hnot (hall l hl)
    · refine iff_of_true ⟨hregular, ?_⟩ fun h => hregular (h.trans (isPrefix_rstrip _).isInfix)
      by_contra hnot
      push Not at hnot
      exact hblock hnot

/-- Up to whitespace around the parts, the written file is read as the regular part in which the
saved options are commented out, and the saved text. -/
def RoundTrip (autosave : FileConfig) (content written : Text) : Prop :=
  rstrip (findAutosaveData (readConfigFile written)).1 =
    rstrip (joinLines (commentOut autosave []
      ((findAutosaveData (readConfigFile content)).1.splitOn '\n'))) ∧
  strip (findAutosaveData (readConfigFile written)).2 = savedText autosave

theorem mem_of_mem_findAutosaveData_fst {data : Text} {c : Char}
    (hc : c ∈ (findAutosaveData data).1) : c ∈ data := by
  unfold findAutosaveData at hc
  cases hfind : find autosaveHeader data with
  | none =>
    rw [hfind] at hc
    dsimp only at hc
    split_ifs at hc <;> exact hc
  | some pos =>
    rw [hfind] at hc
    dsimp only at hc
    split_ifs at hc
    · exact hc
    · exact hc
    · exact List.mem_of_mem_take hc

theorem mem_of_mem_findAutosaveData_snd {data : Text} {c : Char}
    (hc : c ∈ (findAutosaveData data).2) : c = '\n' ∨ c ∈ data := by
  have hlines : ∀ t : Text, (∀ d ∈ t, d ∈ data) →
      c ∈ joinLines ([] :: ((t.splitOn '\n').map (List.drop 4) ++ [[]])) → c = '\n' ∨ c ∈ data := by
    intro t ht hmem
    rcases mem_joinLines hmem with hnewline | ⟨l, hl, hcl⟩
    · exact .inl hnewline
    rcases List.mem_cons.1 hl with rfl | hl
    · cases hcl
    rcases List.mem_append.1 hl with hl | hl
    · obtain ⟨l, hsplit, rfl⟩ := List.mem_map.1 hl
      exact .inr (ht c (mem_of_mem_splitOn hsplit (List.mem_of_mem_drop hcl)))
    · rw [List.mem_singleton.1 hl] at hcl
      cases hcl
  unfold findAutosaveData at hc
  cases hfind : find autosaveHeader data with
  | none =>
    rw [hfind] at hc
    dsimp only at hc
    split_ifs at hc
    · cases hc
    · cases hc
    · exact hlines [] (fun _ hd => nomatch hd) hc
  | some pos =>
    rw [hfind] at hc
    dsimp only at hc
    split_ifs at hc
    · cases hc
    · cases hc
    · generalize autosaveHeader.length = n at hc
      refine hlines (strip (data.drop (pos + n))) (fun d hd => ?_) hc
      exact List.mem_of_mem_drop ((isInfix_strip _).subset hd)

/-- A block that is not judged corrupted is behind a regular part without lines of a block. -/
theorem not_infix_of_snd_ne_nil {data : Text} (h : (findAutosaveData data).2 ≠ []) :
    ¬ '\n' :: linePrefix <:+: (findAutosaveData data).1 := by
  unfold findAutosaveData at h ⊢
  dsimp only at h ⊢
  split_ifs at h ⊢ with hregular
  · exact absurd rfl h
  · exact absurd rfl h
  · exact hregular

variable {autosave} {buildConfigWrapper : Text → Option FileConfig} {content written : Text}
  {writable : Bool}

/-- What a successful `SAVE_CONFIG` writes. -/
theorem written_eq (h : cmdSaveConfig buildConfigWrapper autosave content writable =
    .ok (some written)) : autosave.sections ≠ [] ∧
    written = rstrip (stripDuplicates (findAutosaveData (readConfigFile content)).1 autosave) ++
      autosaveBlock autosave := by
  have hempty : autosave.sections ≠ [] := by
    intro hempty
    rw [cmdSaveConfig, if_pos hempty] at h
    cases h
  refine ⟨hempty, ?_⟩
  rw [cmdSaveConfig, if_neg hempty] at h
  dsimp only at h
  split at h
  · cases h
  split at h
  · cases h
  split at h
  · cases h
  split_ifs at h
  exact (Option.some_inj.1 (Except.ok.inj h)).symm

/-- What `SAVE_CONFIG` writes is read back if and only if the file was not judged corrupted and the
saved text has no carriage return. -/
theorem roundTrip_iff (h : cmdSaveConfig buildConfigWrapper autosave content writable =
    .ok (some written)) : RoundTrip autosave content written ↔
      Intact (readConfigFile content) ∧ '\r' ∉ savedText autosave := by
  obtain ⟨hsections, rfl⟩ := written_eq h
  have hsaved : savedText autosave ≠ [] := by
    intro hnil
    have := (savedText_spec autosave hsections).1.length_le
    rw [hnil] at this
    cases this
  rw [intact_iff, RoundTrip, ← stripDuplicates_eq, ← infix_stripDuplicates_iff _ autosave]
  generalize hregular : stripDuplicates (findAutosaveData (readConfigFile content)).1 autosave = t
  constructor
  · rintro ⟨hfst, hsnd⟩
    refine ⟨fun hin => ?_, fun hmem => ?_⟩
    · have hne : (findAutosaveData (readConfigFile (rstrip t ++ autosaveBlock autosave))).2 ≠ [] := by
        intro hnil
        rw [hnil] at hsnd
        exact hsaved hsnd.symm
      rw [← hfst] at hin
      exact not_infix_of_snd_ne_nil hne (hin.trans (isPrefix_rstrip _).isInfix)
    · rw [← hsnd] at hmem
      rcases mem_of_mem_findAutosaveData_snd ((isInfix_strip _).subset hmem) with hnewline | hmem
      · exact absurd hnewline (by decide)
      · exact not_mem_readConfigFile _ hmem
  · rintro ⟨hin, hreturn⟩
    have hplain : '\r' ∉ rstrip t ++ autosaveBlock autosave := by
      intro hmem
      rcases List.mem_append.1 hmem with hmem | hmem
      · rw [← hregular] at hmem
        exact not_mem_stripDuplicates (fun hc => not_mem_readConfigFile content
          (mem_of_mem_findAutosaveData_fst hc)) autosave ((isPrefix_rstrip _).subset hmem)
      · exact not_mem_autosaveBlock autosave hreturn hmem
    rw [readConfigFile_of_not_mem hplain, findAutosaveData_written autosave hin]
    refine ⟨?_, strip_newlines_savedText autosave hsections⟩
    have hnewline : ¬ Visible ['\n'] := by simp [Visible]; rfl
    rw [rstrip_append_of_not_visible hnewline, rstrip_rstrip]

/-- A section with these options. -/
def section_ (options : List (Text × Text)) (h : ∀ e ∈ options, e.1 ≠ []) : FileConfig where
  defaults := []
  sections := [("probe".toList, options)]
  named_defaults := nofun
  named := by simpa using h

/-- The offset that is saved. -/
def savedOffset : FileConfig :=
  section_ [("z_offset".toList, "1.5".toList)] (by decide +kernel)

/-- The config of a probe whose offset may be commented out. -/
def probeConfig (t : Text) : Option FileConfig :=
  if "\nz_offset".toList <:+: t then
    some (section_ [("z_offset".toList, "0".toList), ("pin".toList, "PA1".toList)]
      (by decide +kernel))
  else some (section_ [("pin".toList, "PA1".toList)] (by decide +kernel))

/-- The text that a successful `SAVE_CONFIG` writes. -/
def writtenText (content : Text) : Option Text :=
  match cmdSaveConfig probeConfig savedOffset content true with
  | .ok written => written
  | .error _ => none

theorem cmdSaveConfig_of_writtenText {content written : Text} (h : writtenText content = some written) :
    cmdSaveConfig probeConfig savedOffset content true = .ok (some written) := by
  unfold writtenText at h
  split at h
  · rename_i hwritten
    rw [hwritten, h]
  · cases h

instance (data : Text) : Decidable (Intact data) :=
  match h : find autosaveHeader data with
  | none => decidable_of_iff (¬ '\n' :: linePrefix <:+: rstrip data) (by rw [Intact, h])
  | some pos => decidable_of_iff (¬ '\n' :: linePrefix <:+: data.take pos ∧
      (strip (data.drop (pos + autosaveHeader.length)) = [] ∨
        ∀ l ∈ (strip (data.drop (pos + autosaveHeader.length))).splitOn '\n', Prefixed l))
      (by rw [Intact, h])

/-- The offset of a probe is saved for the first time. -/
theorem roundTrip_iff_saved :
    ∃ written, cmdSaveConfig probeConfig savedOffset
      "[probe]\nz_offset: 0\npin: PA1\n".toList true = .ok (some written) ∧
      RoundTrip savedOffset "[probe]\nz_offset: 0\npin: PA1\n".toList written := by
  have hsome : (writtenText "[probe]\nz_offset: 0\npin: PA1\n".toList).isSome = true := by
    decide +kernel
  obtain ⟨written, hwritten⟩ := Option.isSome_iff_exists.1 hsome
  have h := cmdSaveConfig_of_writtenText hwritten
  exact ⟨written, h, (roundTrip_iff h).2 ⟨by decide +kernel, by decide +kernel⟩⟩

/-- A config whose block has a line that the user added. -/
def modifiedConfig : Text :=
  "[probe]\nz_offset: 0".toList ++ autosaveHeader ++ "#*# [probe]\npin: PA1\n".toList

/-- Over a block that has been modified, the offset is written, and is not read. -/
theorem not_roundTrip_modified :
    ∃ written, cmdSaveConfig probeConfig savedOffset modifiedConfig true = .ok (some written) ∧
      (findAutosaveData (readConfigFile written)).2 = [] ∧
      ¬ RoundTrip savedOffset modifiedConfig written := by
  have hsome : ((writtenText modifiedConfig).map fun written =>
      (findAutosaveData (readConfigFile written)).2) = some [] := by decide +kernel
  obtain ⟨written, hwritten, hnil⟩ := Option.map_eq_some_iff.1 hsome
  refine ⟨written, cmdSaveConfig_of_writtenText hwritten, hnil, fun h => ?_⟩
  have hsaved := h.2
  rw [hnil] at hsaved
  exact absurd hsaved (by decide +kernel)

end Thinker
