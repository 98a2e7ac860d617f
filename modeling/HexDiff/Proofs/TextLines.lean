import Mathlib.Data.List.Basic

/-!
# Texts made of lines

`unlines` puts a line break behind each of several lines.  If no line has a line break of its own,
the lines can be counted and read off such a text: it has one line break for each of them
(`count_unlines`), and splitting it at the line breaks gives them back (`splitOn_unlines`).

Lines of printable characters are of this kind.  Here printable means visible on any terminal: the
characters of ASCII from the space to the tilde.
-/

namespace HexDiff

/-! ### Printable characters -/

/-- The characters from the space to the tilde. -/
def Printable (c : Char) : Prop :=
  0x20 ≤ c.toNat ∧ c.toNat ≤ 0x7E

instance : DecidablePred Printable :=
  fun c => inferInstanceAs (Decidable (0x20 ≤ c.toNat ∧ c.toNat ≤ 0x7E))

/-- A text of printable characters only. -/
def AllPrintable (text : List Char) : Prop :=
  ∀ c ∈ text, Printable c

instance : DecidablePred AllPrintable := fun text =>
  List.decidableBAll Printable text

/-- A character with a printable number is that character. -/
theorem printable_ofNat {n : Nat} (hlow : 0x20 ≤ n) (hhigh : n ≤ 0x7E) :
    Printable (Char.ofNat n) := by
  have hvalid : n.isValidChar := Or.inl (by omega)
  have hnumber : (Char.ofNat n).toNat = n := by
    rw [Char.ofNat, dif_pos hvalid]
    rfl
  rw [Printable, hnumber]
  exact ⟨hlow, hhigh⟩

namespace AllPrintable

variable {c : Char} {text more : List Char}

@[simp] theorem nil : AllPrintable [] :=
  fun _ hc => absurd hc List.not_mem_nil

@[simp] theorem cons_iff : AllPrintable (c :: text) ↔ Printable c ∧ AllPrintable text :=
  List.forall_mem_cons

@[simp] theorem append_iff :
    AllPrintable (text ++ more) ↔ AllPrintable text ∧ AllPrintable more :=
  List.forall_mem_append

/-- Printable texts one after the other. -/
theorem flatMap {α : Type} {xs : List α} {f : α → List Char} (h : ∀ x ∈ xs, AllPrintable (f x)) :
    AllPrintable (xs.flatMap f) := by
  intro c hc
  obtain ⟨x, hx, hc⟩ := List.mem_flatMap.mp hc
  exact h x hx c hc

/-- A printable text has no line break. -/
theorem newline_notMem (h : AllPrintable text) : '\n' ∉ text := by
  intro hmem
  have hnewline : ¬Printable '\n' := by decide
  exact hnewline (h _ hmem)

end AllPrintable

/-! ### Lines -/

/-- Some lines, each with a line break. -/
def unlines (lines : List (List Char)) : List Char :=
  lines.flatMap (· ++ ['\n'])

/-- The first line, and the others. -/
theorem unlines_cons (line : List Char) (lines : List (List Char)) :
    unlines (line :: lines) = line ++ '\n' :: unlines lines := by
  rw [unlines, List.flatMap_cons, List.append_assoc]
  rfl

/-- Nothing but printable characters and line breaks stands in lines of printable characters. -/
theorem mem_unlines {lines : List (List Char)} (h : ∀ line ∈ lines, AllPrintable line) :
    ∀ c ∈ unlines lines, c = '\n' ∨ Printable c := by
  intro c hc
  obtain ⟨line, hline, hc⟩ := List.mem_flatMap.mp hc
  rcases List.mem_append.mp hc with hc | hc
  · exact Or.inr (h line hline c hc)
  · exact Or.inl (List.mem_singleton.mp hc)

/-- There are as many line breaks as lines. -/
theorem count_unlines {lines : List (List Char)} (h : ∀ line ∈ lines, '\n' ∉ line) :
    (unlines lines).count '\n' = lines.length := by
  induction lines with
  | nil => rfl
  | cons line lines ih =>
    have hline : line.count '\n' = 0 := List.count_eq_zero_of_not_mem (h line List.mem_cons_self)
    have hlines := ih fun l hl => h l (List.mem_cons_of_mem _ hl)
    rw [unlines_cons, List.count_append, List.count_cons_self, hline, hlines, List.length_cons]
    omega

/-- The lines are what stands between the line breaks.  Behind the last line break there is nothing
more. -/
theorem splitOn_unlines {lines : List (List Char)} (h : ∀ line ∈ lines, '\n' ∉ line) :
    (unlines lines).splitOn '\n' = lines ++ [[]] := by
  induction lines with
  | nil => rfl
  | cons line lines ih =>
    have hlines := ih fun l hl => h l (List.mem_cons_of_mem _ hl)
    have hline : line.splitOn '\n' = [line] := List.splitOn_eq_singleton (h line List.mem_cons_self)
    -- what is split at a break has a lemma only for a test, not for a character
    rw [List.splitOn_eq_splitOnP] at hlines hline ⊢
    rw [unlines_cons, List.splitOnP_append_cons (p := (· == '\n')) _ _ (beq_self_eq_true '\n'),
      hlines, hline]
    rfl

/-! ### Groups of lines -/

variable {α : Type} {f : α → List (List Char)} {m : Nat}

/-- Lines that come in groups are the groups one after the other. -/
theorem unlines_flatMap (xs : List α) (f : α → List (List Char)) :
    unlines (xs.flatMap f) = xs.flatMap fun x => unlines (f x) := by
  rw [unlines, List.flatMap_assoc]
  rfl

/-- Groups of one size, all together. -/
theorem length_flatMap_of_length (h : ∀ x, (f x).length = m) (xs : List α) :
    (xs.flatMap f).length = m * xs.length := by
  induction xs with
  | nil => rfl
  | cons x xs ih =>
    rw [List.flatMap_cons, List.length_append, h, ih, List.length_cons, Nat.mul_succ, Nat.add_comm]

/-- In groups of one size, the place of a line tells its group and its place there. -/
theorem getElem?_flatMap_of_length (h : ∀ x, (f x).length = m) {xs : List α} {j : Nat} {x : α}
    (hx : xs[j]? = some x) {i : Nat} (hi : i < m) :
    (xs.flatMap f)[m * j + i]? = (f x)[i]? := by
  induction xs generalizing j with
  | nil => cases hx
  | cons y xs ih =>
    rw [List.flatMap_cons]
    cases j with
    | zero =>
      obtain rfl : y = x := Option.some.inj hx
      rw [Nat.mul_zero, Nat.zero_add, List.getElem?_append_left (by rw [h]; exact hi)]
    | succ j =>
      -- one step of `j` skips one whole group
      have hshift : m * (j + 1) + i - m = m * j + i := by
        rw [Nat.mul_succ]
        omega
      rw [List.getElem?_append_right (by rw [h, Nat.mul_succ]; omega), h, hshift]
      exact ih hx

end HexDiff
