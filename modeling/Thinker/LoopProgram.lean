import Mathlib.Tactic

/-!
# Loops that are run with a stack

A program is a sequence of instructions with loops that are nested in it. Its code is the list of
its instructions with those that begin and end a loop, and its meaning the instructions in the order
in which they are executed (`expand`). The code can be run by jumping : the beginning of a loop puts
its count and its body on a stack, and the end goes back to the body until the count is used up
(`execute`).

A run of the code follows the expansion of the program (`Rest.execute`).
-/

namespace Thinker

/-- What an instruction does to the loops. A loop without end has the count 0. -/
inductive LoopCommand where
  | loopBegin (count : ℕ)
  | loopEnd
  | other
  deriving DecidableEq

/-- A program with nested loops. A loop has its first instruction, its count, its body and its last
instruction. -/
inductive LoopProgram (α : Type) where
  | nil
  | line (l : α) (rest : LoopProgram α)
  | loop (first : α) (count : ℕ) (body : LoopProgram α) (last : α) (rest : LoopProgram α)

namespace LoopProgram

variable {α : Type}

/-- The code. -/
def lines : LoopProgram α → List α
  | nil => []
  | line l rest => l :: rest.lines
  | loop first _ body last rest => first :: (body.lines ++ last :: rest.lines)

/-- The instructions in the order of execution. -/
def expand : LoopProgram α → List α
  | nil => []
  | line l rest => l :: rest.expand
  | loop first count body last rest =>
    first :: ((List.replicate count (body.expand ++ [last])).flatten ++ rest.expand)

/-- The instructions that are not about loops, in the order of execution. -/
def unroll : LoopProgram α → List α
  | nil => []
  | line l rest => l :: rest.unroll
  | loop _ count body _ rest => (List.replicate count body.unroll).flatten ++ rest.unroll

variable (parse : α → LoopCommand)

/-- The instructions are what they stand for, and every loop is run. -/
def WellNested : LoopProgram α → Prop
  | nil => True
  | line l rest => parse l = .other ∧ rest.WellNested
  | loop first count body last rest =>
    parse first = .loopBegin count ∧ 1 ≤ count ∧ parse last = .loopEnd ∧ body.WellNested ∧
      rest.WellNested

instance decidableWellNested : (p : LoopProgram α) → Decidable (p.WellNested parse)
  | nil => isTrue trivial
  | line _ rest =>
    have := decidableWellNested rest
    inferInstanceAs (Decidable (_ ∧ _))
  | loop _ _ body _ rest =>
    have := decidableWellNested body
    have := decidableWellNested rest
    inferInstanceAs (Decidable (_ ∧ _ ∧ _ ∧ _ ∧ _))

variable {parse}

/-- Without the instructions about loops the expansion is the unrolled program. -/
theorem filter_expand {p : LoopProgram α} (h : p.WellNested parse) :
    p.expand.filter (fun l => parse l = .other) = p.unroll := by
  induction p with
  | nil => rfl
  | line l rest ih =>
    obtain ⟨hl, hrest⟩ := h
    rw [expand, List.filter_cons_of_pos (by simp [hl]), ih hrest, unroll]
  | loop first count body last rest ihbody ihrest =>
    obtain ⟨hfirst, -, hlast, hbody, hrest⟩ := h
    have hone : (body.expand ++ [last]).filter (fun l => parse l = .other) = body.unroll := by
      rw [List.filter_append, ihbody hbody, List.filter_cons_of_neg (by simp [hlast]),
        List.filter_nil, List.append_nil]
    rw [expand, List.filter_cons_of_neg (by simp [hfirst]), List.filter_append, ihrest hrest,
      List.filter_flatten, List.map_replicate, hone, unroll]

/-! ## Running the code -/

/-- The code that is left and the stack, after an instruction with this code behind it. -/
def execute (code : List α) (stack : List (ℕ × List α)) :
    LoopCommand → List α × List (ℕ × List α)
  | .loopBegin count => (code, (count, code) :: stack)
  | .loopEnd =>
    match stack with
    | [] => (code, [])
    | (count, start) :: stack =>
      if count = 0 then (start, (0, start) :: stack)
      else if count = 1 then (code, stack)
      else (start, (count - 1, start) :: stack)
  | .other => (code, stack)

variable (parse)

/-- The code behind the innermost body, with the stack and what is executed from there on. -/
inductive Frames : List α → List (ℕ × List α) → List α → Prop
  | nil : Frames [] [] []
  | cons {body rest : LoopProgram α} {last : α} {n : ℕ} {code : List α}
      {stack : List (ℕ × List α)} {r : List α} (hbody : body.WellNested parse)
      (hlast : parse last = .loopEnd) (hrest : rest.WellNested parse) (h : Frames code stack r) :
      Frames (last :: (rest.lines ++ code))
        ((n + 1, body.lines ++ last :: (rest.lines ++ code)) :: stack)
        (last :: ((List.replicate n (body.expand ++ [last])).flatten ++ (rest.expand ++ r)))

/-- From this code and stack on, these instructions are executed. -/
def Rest (code : List α) (stack : List (ℕ × List α)) (r : List α) : Prop :=
  ∃ (p : LoopProgram α) (code₀ r₀ : List α), p.WellNested parse ∧ Frames parse code₀ stack r₀ ∧
    code = p.lines ++ code₀ ∧ r = p.expand ++ r₀

variable {parse}

theorem rest_lines {p : LoopProgram α} (h : p.WellNested parse) :
    Rest parse p.lines [] p.expand :=
  ⟨p, [], [], h, .nil, (List.append_nil _).symm, (List.append_nil _).symm⟩

/-- Where no code is left, nothing is to be executed. -/
theorem Rest.of_nil {stack : List (ℕ × List α)} {r : List α} (h : Rest parse [] stack r) :
    stack = [] ∧ r = [] := by
  obtain ⟨p, code₀, r₀, hp, hframes, hcode, rfl⟩ := h
  obtain ⟨hlines, rfl⟩ := List.append_eq_nil_iff.1 hcode.symm
  cases hframes with
  | nil =>
    cases p with
    | nil => exact ⟨rfl, rfl⟩
    | line l rest => exact absurd hlines nofun
    | loop first count body last rest => exact absurd hlines nofun

/-- The next instruction of the code is the next to be executed, and from the code that it leaves
on the others are. -/
theorem Rest.execute {l : α} {code : List α} {stack : List (ℕ × List α)} {r : List α}
    (h : Rest parse (l :: code) stack r) :
    ∃ r', r = l :: r' ∧ Rest parse (LoopProgram.execute code stack (parse l)).1
      (LoopProgram.execute code stack (parse l)).2 r' := by
  obtain ⟨p, code₀, r₀, hp, hframes, hcode, rfl⟩ := h
  cases p with
  | line l' rest =>
    obtain ⟨rfl, rfl⟩ := List.cons.inj hcode
    obtain ⟨hl, hrest⟩ := hp
    rw [hl]
    exact ⟨rest.expand ++ r₀, rfl, rest, code₀, r₀, hrest, hframes, rfl, rfl⟩
  | loop first count body last rest =>
    obtain ⟨rfl, rfl⟩ := List.cons.inj hcode
    obtain ⟨hfirst, hcount, hlast, hbody, hrest⟩ := hp
    obtain ⟨n, rfl⟩ : ∃ n, count = n + 1 := ⟨count - 1, by omega⟩
    have hcode : body.lines ++ last :: rest.lines ++ code₀ =
        body.lines ++ last :: (rest.lines ++ code₀) := by
      rw [List.append_assoc, List.cons_append]
    rw [hfirst]
    show ∃ r', _ ∧ Rest parse (body.lines ++ last :: rest.lines ++ code₀)
      ((n + 1, body.lines ++ last :: rest.lines ++ code₀) :: stack) r'
    rw [hcode]
    refine ⟨body.expand ++ (last :: ((List.replicate n (body.expand ++ [last])).flatten ++
      (rest.expand ++ r₀))), ?_, body, _, _, hbody, .cons hbody hlast hrest hframes, rfl, rfl⟩
    rw [expand, List.replicate_succ, List.flatten_cons]
    simp only [List.cons_append, List.append_assoc, List.nil_append]
  | nil =>
    cases hframes with
    | nil => exact absurd hcode nofun
    | cons hbody hlast hrest hframes =>
      rename_i body rest last n code₁ stack r₁
      obtain ⟨rfl, rfl⟩ := List.cons.inj hcode
      rw [hlast]
      refine ⟨_, rfl, ?_⟩
      cases n with
      | zero => exact ⟨rest, code₁, r₁, hrest, hframes, rfl, rfl⟩
      | succ n =>
        refine ⟨body, _, _, hbody, .cons hbody hlast hrest hframes, rfl, ?_⟩
        rw [List.replicate_succ, List.flatten_cons]
        simp only [List.cons_append, List.append_assoc, List.nil_append]

theorem Rest.head_eq {code : List α} {stack : List (ℕ × List α)} {r : List α}
    (h : Rest parse code stack r) : r.head? = code.head? := by
  cases code with
  | nil => rw [h.of_nil.2]
  | cons l code =>
    obtain ⟨r', rfl, -⟩ := h.execute
    rfl

end LoopProgram

end Thinker
