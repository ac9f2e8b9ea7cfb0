import Mathlib.Tactic

/-!
# Steps that may fail

A result of several steps comes of a result of each.  These lemmas take the steps apart, one at a
time, and say of a list that it is read where each of its elements is.

* `bind_eq_ok`, `bind_eq_error`, `map_eq_ok`, `mapError_eq_ok`: the step in front of a successful
  one succeeded, and the first one that fails decides;
* `mapM_eq_some_iff`, `mapM_eq_ok_iff`, `mapM_eq_error_iff`: reading a list;
* `mapM_eq_some_filterMap`, `mapM_eq_none`: what becomes of a list of which it is known that all
  elements can be read, or that one cannot;
* `getLast?_filterMap_eq_some_iff`: the last element of a list that can be read.
-/

namespace ProxyAuth

section

variable {ε α β : Type}

/-- Two steps succeed one after the other. -/
theorem bind_eq_ok {step : Except ε α} {next : α → Except ε β} {result : β} :
    step >>= next = .ok result ↔ ∃ value, step = .ok value ∧ next value = .ok result := by
  cases step with
  | error fault =>
    constructor
    · rintro ⟨⟩
    · rintro ⟨value, ⟨⟩, -⟩
  | ok value =>
    constructor
    · intro h
      exact ⟨value, rfl, h⟩
    · rintro ⟨other, hother, h⟩
      obtain rfl := Except.ok.inj hother
      exact h

/-- Of two steps the first one that fails decides. -/
theorem bind_eq_error {step : Except ε α} {next : α → Except ε β} {fault : ε} :
    step >>= next = .error fault ↔
      step = .error fault ∨ ∃ value, step = .ok value ∧ next value = .error fault := by
  cases step with
  | error other =>
    constructor
    · intro h
      exact .inl (congrArg Except.error (Except.error.inj h))
    · rintro (h | ⟨value, ⟨⟩, -⟩)
      exact congrArg Except.error (Except.error.inj h)
  | ok value =>
    constructor
    · intro h
      exact .inr ⟨value, rfl, h⟩
    · rintro (h | ⟨other, hother, h⟩)
      · cases h
      · obtain rfl := Except.ok.inj hother
        exact h

theorem map_eq_ok {step : Except ε α} {f : α → β} {result : β} :
    step.map f = .ok result ↔ ∃ value, step = .ok value ∧ f value = result := by
  cases step with
  | error fault =>
    constructor
    · rintro ⟨⟩
    · rintro ⟨value, ⟨⟩, -⟩
  | ok value =>
    constructor
    · rintro ⟨⟩
      exact ⟨value, rfl, rfl⟩
    · rintro ⟨other, hother, rfl⟩
      obtain rfl := Except.ok.inj hother
      rfl

/-- Renaming the faults does not make a step succeed. -/
theorem mapError_eq_ok {δ : Type} {step : Except ε α} {f : ε → δ} {result : α} :
    step.mapError f = .ok result ↔ step = .ok result := by
  cases step <;> simp [Except.mapError]

end

/-! ### Lists -/

section

variable {ε α β : Type}

/-- A list is read element by element. -/
theorem mapM_eq_some_iff {f : α → Option β} {l : List α} {results : List β} :
    l.mapM f = some results ↔ List.Forall₂ (fun x y => f x = some y) l results := by
  induction l generalizing results with
  | nil => simp [eq_comm]
  | cons x rest ih =>
    rw [List.mapM_cons, List.forall₂_cons_left_iff]
    constructor
    · intro h
      obtain ⟨y, hy, h⟩ := Option.bind_eq_some_iff.mp h
      obtain ⟨ys, hys, h⟩ := Option.bind_eq_some_iff.mp h
      exact ⟨y, ys, hy, ih.mp hys, (Option.some.inj h).symm⟩
    · rintro ⟨y, ys, hy, hys, rfl⟩
      rw [hy, ih.mpr hys]
      rfl

/-- A list is read if all its elements are. -/
theorem mapM_eq_some_filterMap {f : α → Option β} {l : List α}
    (h : ∀ x ∈ l, (f x).isSome) : l.mapM f = some (l.filterMap f) := by
  induction l with
  | nil => rfl
  | cons x rest ih =>
    obtain ⟨y, hy⟩ := Option.isSome_iff_exists.mp (h x List.mem_cons_self)
    rw [List.mapM_cons, hy, ih fun z hz => h z (List.mem_cons_of_mem _ hz),
      List.filterMap_cons_some hy]
    rfl

/-- One element that cannot be read spoils the list. -/
theorem mapM_eq_none {f : α → Option β} {l : List α} {x : α} (hx : x ∈ l)
    (h : f x = none) : l.mapM f = none := by
  induction l with
  | nil => cases hx
  | cons y rest ih =>
    rw [List.mapM_cons]
    rcases List.mem_cons.mp hx with rfl | hx
    · simp [h]
    · cases f y <;> simp [ih hx]

/-- A list of steps succeeds if each of them does. -/
theorem mapM_eq_ok_iff {f : α → Except ε β} {l : List α} {results : List β} :
    l.mapM f = .ok results ↔ List.Forall₂ (fun x y => f x = .ok y) l results := by
  induction l generalizing results with
  | nil =>
    rw [List.mapM_nil, List.forall₂_nil_left_iff]
    exact ⟨fun h => (Except.ok.inj h).symm, fun h => congrArg Except.ok h.symm⟩
  | cons x rest ih =>
    rw [List.mapM_cons, bind_eq_ok, List.forall₂_cons_left_iff]
    constructor
    · rintro ⟨y, hy, h⟩
      obtain ⟨ys, hys, h⟩ := bind_eq_ok.mp h
      exact ⟨y, ys, hy, ih.mp hys, (Except.ok.inj h).symm⟩
    · rintro ⟨y, ys, hy, hys, rfl⟩
      exact ⟨y, hy, bind_eq_ok.mpr ⟨ys, ih.mpr hys, rfl⟩⟩

/-- A list of steps fails as the first of them that fails. -/
theorem mapM_eq_error_iff {f : α → Except ε β} {l : List α} {fault : ε} :
    l.mapM f = .error fault ↔
      ∃ before x after, l = before ++ x :: after ∧ (∀ y ∈ before, ∃ value, f y = .ok value) ∧
        f x = .error fault := by
  induction l with
  | nil =>
    rw [List.mapM_nil]
    exact iff_of_false nofun (by rintro ⟨before, x, after, h, -⟩; simp at h)
  | cons x rest ih =>
    rw [List.mapM_cons, bind_eq_error]
    constructor
    · rintro (hx | ⟨y, hy, h⟩)
      · exact ⟨[], x, rest, rfl, List.forall_mem_nil _, hx⟩
      · rcases bind_eq_error.mp h with h | ⟨ys, -, ⟨⟩⟩
        obtain ⟨before, z, after, rfl, hbefore, hz⟩ := ih.mp h
        exact ⟨x :: before, z, after, rfl, List.forall_mem_cons.mpr ⟨⟨y, hy⟩, hbefore⟩, hz⟩
    · rintro ⟨before, z, after, hl, hbefore, hz⟩
      cases before with
      | nil =>
        obtain ⟨rfl, rfl⟩ := List.cons_eq_cons.mp hl
        exact .inl hz
      | cons y before =>
        obtain ⟨rfl, rfl⟩ := List.cons_eq_cons.mp hl
        obtain ⟨⟨value, hy⟩, hbefore⟩ := List.forall_mem_cons.mp hbefore
        have hrest := ih.mpr ⟨before, z, after, rfl, hbefore, hz⟩
        exact .inr ⟨value, hy, bind_eq_error.mpr (.inl hrest)⟩

/-- The last value that is found in a list comes from an element behind which nothing is found. -/
theorem getLast?_filterMap_eq_some_iff {f : α → Option β} {l : List α} {y : β} :
    (l.filterMap f).getLast? = some y ↔
      ∃ before x after, l = before ++ x :: after ∧ f x = some y ∧ ∀ z ∈ after, f z = none := by
  rw [List.getLast?_filterMap, List.findSome?_eq_some_iff]
  constructor
  · rintro ⟨after, x, before, hl, hx, hafter⟩
    refine ⟨before.reverse, x, after.reverse, ?_, hx, by simpa using hafter⟩
    simpa using congrArg List.reverse hl
  · rintro ⟨before, x, after, rfl, hx, hafter⟩
    exact ⟨after.reverse, x, before.reverse, by simp, hx, by simpa using hafter⟩

end

end ProxyAuth
