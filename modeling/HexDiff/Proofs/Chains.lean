/-!
# Chains of steps that may fail

A chain of steps comes to a result exactly if its first step does, and what is behind that step does
so from the result of it.  How failures are worded has no part in this.

A step that is taken for each element of a list makes such a chain.  It stops at the first element
that fails (`mapM_eq_error`).
-/

namespace HexDiff

variable {ε ε' α β : Type}

/-- The first step of a chain, and the rest. -/
theorem bind_eq_ok_iff {x : Except ε α} {f : α → Except ε β} {b : β} :
    (x >>= f) = .ok b ↔ ∃ a, x = .ok a ∧ f a = .ok b := by
  cases x with
  | error e => simp [bind, Except.bind]
  | ok a => simp [bind, Except.bind]

/-- What is behind a step that came to a result goes on from it. -/
theorem ok_bind (a : α) (f : α → Except ε β) : (.ok a >>= f) = f a := rfl

/-- A step whose failures are worded anew. -/
theorem mapError_eq_ok_iff {x : Except ε α} {word : ε → ε'} {a : α} :
    x.mapError word = .ok a ↔ x = .ok a := by
  cases x with
  | error e => exact iff_of_false nofun nofun
  | ok a' => exact ⟨fun h => congrArg Except.ok (Except.ok.inj h), congrArg (Except.mapError word)⟩

/-- A failure that was worded anew. -/
theorem mapError_eq_error_iff {x : Except ε α} {word : ε → ε'} {e' : ε'} :
    x.mapError word = .error e' ↔ ∃ e, x = .error e ∧ word e = e' := by
  constructor
  · intro h
    cases x with
    | error e => exact ⟨e, rfl, Except.error.inj h⟩
    | ok a => cases h
  · rintro ⟨e, rfl, rfl⟩
    rfl

/-! ### One step for each element -/

variable {γ : Type} {f : α → Except ε β}

/-- A list of steps that all come to a result. -/
theorem exists_mapM_eq {xs : List α} (h : ∀ x ∈ xs, ∃ y, f x = .ok y) :
    ∃ ys, xs.mapM f = .ok ys := by
  induction xs with
  | nil => exact ⟨[], rfl⟩
  | cons x xs ih =>
    obtain ⟨y, hy⟩ := h x List.mem_cons_self
    obtain ⟨ys, hys⟩ := ih fun x' hx' => h x' (List.mem_cons_of_mem x hx')
    exact ⟨y :: ys, by rw [List.mapM_cons, hy, hys]; rfl⟩

/-- Steps that come to known results. -/
theorem mapM_eq_ok_map {g : α → β} {xs : List α} (h : ∀ x ∈ xs, f x = .ok (g x)) :
    xs.mapM f = .ok (xs.map g) := by
  induction xs with
  | nil => rfl
  | cons x xs ih =>
    rw [List.mapM_cons, h x List.mem_cons_self, ok_bind,
      ih fun x' hx' => h x' (List.mem_cons_of_mem x hx'), ok_bind, List.map_cons]
    rfl

/-- Steps that come to known results, each of them from the result of the one before. -/
theorem foldlM_eq_ok_foldl {f : β → α → Except ε β} {g : β → α → β} {xs : List α}
    (h : ∀ b, ∀ x ∈ xs, f b x = .ok (g b x)) (b : β) : xs.foldlM f b = .ok (xs.foldl g b) := by
  induction xs generalizing b with
  | nil => rfl
  | cons x xs ih =>
    rw [List.foldlM_cons, h b x List.mem_cons_self, ok_bind, List.foldl_cons]
    exact ih (fun b' x' hx' => h b' x' (List.mem_cons_of_mem x hx')) (g b x)

/-- A list of steps stops at the first one that fails. -/
theorem mapM_eq_error {front back : List α} {x : α} {e : ε} (hfront : ∀ x ∈ front, ∃ y, f x = .ok y)
    (hx : f x = .error e) : (front ++ x :: back).mapM f = .error e := by
  induction front with
  | nil =>
    rw [List.nil_append, List.mapM_cons, hx]
    rfl
  | cons first front ih =>
    obtain ⟨y, hy⟩ := hfront first List.mem_cons_self
    rw [List.cons_append, List.mapM_cons, hy,
      ih fun x' hx' => hfront x' (List.mem_cons_of_mem first hx')]
    rfl

/-- What is known of each step is known of all results. -/
theorem map_eq_map_of_mapM {g : α → γ} {k : β → γ}
    (hf : ∀ {x y}, f x = .ok y → g x = k y) {xs : List α} {ys : List β}
    (h : xs.mapM f = .ok ys) : xs.map g = ys.map k := by
  induction xs generalizing ys with
  | nil =>
    obtain rfl : [] = ys := Except.ok.inj h
    rfl
  | cons x xs ih =>
    rw [List.mapM_cons] at h
    obtain ⟨y, hy, h⟩ := bind_eq_ok_iff.mp h
    obtain ⟨more, hmore, h⟩ := bind_eq_ok_iff.mp h
    obtain rfl : y :: more = ys := Except.ok.inj h
    rw [List.map_cons, List.map_cons, hf hy, ih hmore]

end HexDiff
