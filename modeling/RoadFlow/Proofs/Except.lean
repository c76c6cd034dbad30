import Mathlib.Data.List.Forall2

/-!
# Steps that may fail

A sequence of steps succeeds when each of them does, with the results of all of them.
-/

namespace RoadFlow

variable {α β ε : Type}

theorem bind_eq_ok {x : Except ε α} {f : α → Except ε β} {b : β} :
    x >>= f = .ok b ↔ ∃ a, x = .ok a ∧ f a = .ok b := by
  cases x with
  | error e => simp [bind, Except.bind]
  | ok a => simp [bind, Except.bind]

theorem mapM_eq_ok {f : α → Except ε β} {xs : List α} {ys : List β} :
    xs.mapM f = .ok ys ↔ List.Forall₂ (fun x y => f x = .ok y) xs ys := by
  induction xs generalizing ys with
  | nil => simp [pure, Except.pure, eq_comm]
  | cons x xs ih =>
    simp only [List.mapM_cons, bind_eq_ok, List.forall₂_cons_left_iff, ← ih]
    constructor
    · rintro ⟨y, first, ys', rest, same⟩
      cases same
      exact ⟨y, ys', first, rest, rfl⟩
    · rintro ⟨y, ys', first, rest, rfl⟩
      exact ⟨y, first, ys', rest, rfl⟩

theorem exists_of_mem_mapM {f : α → Except ε β} {xs : List α} {ys : List β}
    (h : xs.mapM f = .ok ys) {y : β} (hy : y ∈ ys) : ∃ x ∈ xs, f x = .ok y := by
  rw [mapM_eq_ok] at h
  induction h with
  | nil => cases hy
  | cons first _ ih =>
    rcases List.mem_cons.mp hy with rfl | later
    · exact ⟨_, List.mem_cons_self, first⟩
    · obtain ⟨x, hx, found⟩ := ih later
      exact ⟨x, List.mem_cons_of_mem _ hx, found⟩

theorem mapM_eq_map {f : α → Except ε β} {g : α → β} {xs : List α}
    (h : ∀ x ∈ xs, f x = .ok (g x)) : xs.mapM f = .ok (xs.map g) := by
  rw [mapM_eq_ok, List.forall₂_map_right_iff, List.forall₂_same]
  exact h

/-- Steps whose results are known when they succeed. -/
theorem eq_map_of_mapM {f : α → Except ε β} {g : α → β} {xs : List α} {ys : List β}
    (known : ∀ {x y}, f x = .ok y → y = g x) (h : xs.mapM f = .ok ys) :
    ys = xs.map g ∧ ∀ x ∈ xs, f x = .ok (g x) := by
  rw [mapM_eq_ok] at h
  induction h with
  | nil => exact ⟨rfl, by simp⟩
  | cons first _ ih =>
    obtain ⟨rfl, all⟩ := ih
    obtain rfl := known first
    exact ⟨rfl, by simpa using ⟨first, all⟩⟩

/-- Results can be put together as they come, or once all of them are there. -/
theorem foldlM_eq_map {γ : Type} (f : α → Except ε β) (g : γ → β → γ) (xs : List α) (c : γ) :
    xs.foldlM (fun c x => g c <$> f x) c = (xs.mapM f).map fun ys => ys.foldl g c := by
  induction xs generalizing c with
  | nil => rfl
  | cons x xs ih =>
    rw [List.foldlM_cons, List.mapM_cons]
    cases f x with
    | error fault => rfl
    | ok y =>
      refine (ih (g c y)).trans ?_
      cases xs.mapM f <;> rfl

theorem mapM_eq_some {f : α → Option β} {g : α → β} {xs : List α}
    (h : ∀ x ∈ xs, f x = some (g x)) : xs.mapM f = some (xs.map g) := by
  induction xs with
  | nil => rfl
  | cons x xs ih =>
    rw [List.forall_mem_cons] at h
    rw [List.mapM_cons, h.1, ih h.2]
    rfl

/-- What optional steps give stands where what they were given stood. -/
theorem getElem?_mapM {f : α → Option β} {xs : List α} {ys : List β}
    (h : xs.mapM f = some ys) {i : Nat} {x : α} (hx : xs[i]? = some x) : f x = ys[i]? := by
  induction xs generalizing ys i with
  | nil => cases hx
  | cons first xs ih =>
    rw [List.mapM_cons, Option.bind_eq_bind, Option.bind_eq_some_iff] at h
    obtain ⟨y, found, h⟩ := h
    obtain ⟨rest, later, last⟩ := Option.bind_eq_some_iff.mp h
    cases last
    cases i with
    | zero =>
      cases hx
      exact found
    | succ i => exact ih later hx

theorem forM_eq_ok {f : α → Except ε Unit} {xs : List α} :
    xs.forM f = .ok () ↔ ∀ x ∈ xs, f x = .ok () := by
  induction xs with
  | nil => simp [pure, Except.pure]
  | cons x xs ih =>
    rw [List.forM_eq_forM] at ih
    simp only [List.forM_eq_forM, List.forM_cons, bind_eq_ok, ih, List.forall_mem_cons]
    constructor
    · rintro ⟨_, first, rest⟩
      exact ⟨first, rest⟩
    · rintro ⟨first, rest⟩
      exact ⟨(), first, rest⟩

/-- What every successful step keeps, a successful sequence of them keeps. -/
theorem foldlM_invariant {f : β → α → Except ε β} (P : List α → β → Prop) {xs seen : List α}
    {b c : β} (start : P seen b)
    (step : ∀ {seen b x c}, P seen b → f b x = .ok c → P (seen ++ [x]) c)
    (run : xs.foldlM f b = .ok c) : P (seen ++ xs) c := by
  induction xs generalizing seen b with
  | nil =>
    cases run
    simpa using start
  | cons x xs ih =>
    rw [List.foldlM_cons, bind_eq_ok] at run
    obtain ⟨next, first, rest⟩ := run
    simpa using ih (step start first) rest

/-- Where not all elements have a property, there is a first one without it. -/
theorem exists_first {P : α → Prop} {xs : List α} (some_not : ¬ ∀ x ∈ xs, P x) :
    ∃ before x after, xs = before ++ x :: after ∧ (∀ y ∈ before, P y) ∧ ¬ P x := by
  induction xs with
  | nil => exact absurd (List.forall_mem_nil P) some_not
  | cons x xs ih =>
    by_cases here : P x
    · have later : ¬ ∀ y ∈ xs, P y := by
        intro all
        exact some_not (List.forall_mem_cons.mpr ⟨here, all⟩)
      obtain ⟨before, y, after, rfl, all, missing⟩ := ih later
      exact ⟨x :: before, y, after, rfl, List.forall_mem_cons.mpr ⟨here, all⟩, missing⟩
    · exact ⟨[], x, xs, rfl, List.forall_mem_nil P, here⟩

/-- Behind a step that fails nothing is done. -/
theorem foldlM_stops {f : β → α → Except ε β} {before after : List α} {x : α} {b c : β} {e : ε}
    (run : before.foldlM f b = .ok c) (fails : f c x = .error e) :
    (before ++ x :: after).foldlM f b = .error e := by
  rw [List.foldlM_append, run]
  show (x :: after).foldlM f c = .error e
  rw [List.foldlM_cons, fails]
  rfl

theorem mapM_stops {f : α → Except ε β} {before after : List α} {x : α} {e : ε}
    (run : ∀ y ∈ before, ∃ z, f y = .ok z) (fails : f x = .error e) :
    (before ++ x :: after).mapM f = .error e := by
  induction before with
  | nil =>
    rw [List.nil_append, List.mapM_cons, fails]
    rfl
  | cons y before ih =>
    rw [List.forall_mem_cons] at run
    obtain ⟨⟨z, first⟩, run⟩ := run
    rw [List.cons_append, List.mapM_cons, first, ih run]
    rfl

/-- Behind a step that fails nothing is done, and the state stays as that step leaves it. -/
theorem run_bind {σ : Type} (x : ExceptT ε (StateM σ) α) (f : α → ExceptT ε (StateM σ) β) (s : σ) :
    (x >>= f).run s =
      match (x.run s : Except ε α × σ) with
      | (.ok a, t) => (f a).run t
      | (.error e, t) => (.error e, t) := by
  have split : (x >>= f).run s =
      Prod.casesOn (x.run s : Except ε α × σ) fun result t => ExceptT.bindCont f result t := rfl
  rw [split]
  rcases (x.run s : Except ε α × σ) with ⟨e | a, t⟩ <;> rfl

/-- Steps with a state in turn succeed when both do. -/
theorem run_bind_eq_ok {σ : Type} {x : ExceptT ε (StateM σ) α} {f : α → ExceptT ε (StateM σ) β}
    {s t : σ} {b : β} :
    (x >>= f).run s = (.ok b, t) ↔ ∃ a u, x.run s = (.ok a, u) ∧ (f a).run u = (.ok b, t) := by
  rw [run_bind]
  split
  · rename_i a u first
    constructor
    · exact fun rest => ⟨a, u, first, rest⟩
    · rintro ⟨a', u', same, rest⟩
      rw [first] at same
      cases same
      exact rest
  · rename_i e u first
    constructor
    · nofun
    · rintro ⟨a', u', same, -⟩
      rw [first] at same
      cases same

theorem map_eq_ok {f : α → β} {x : Except ε α} {b : β} :
    x.map f = .ok b ↔ ∃ a, x = .ok a ∧ f a = b := by
  cases x <;> simp [Except.map]

theorem mapError_eq_ok {δ : Type} {f : ε → δ} {x : Except ε α} {a : α} :
    x.mapError f = .ok a ↔ x = .ok a := by
  cases x <;> simp [Except.mapError]

/-! ## Errors of a sequence -/

/-- Whatever error comes out has a property. -/
def FailsOnly (P : ε → Prop) (x : Except ε α) : Prop := ∀ e, x = .error e → P e

namespace FailsOnly

variable {P : ε → Prop} {x : Except ε α}

theorem ok (a : α) : FailsOnly P (.ok a : Except ε α) := nofun

theorem error {e : ε} (h : P e) : FailsOnly P (.error e : Except ε α) := by
  intro e' same
  cases same
  exact h

theorem mapError {δ : Type} {f : δ → ε} {x : Except δ α} (h : ∀ d, x = .error d → P (f d)) :
    FailsOnly P (x.mapError f) := by
  cases x with
  | ok a => exact ok a
  | error d => exact error (h d rfl)

theorem map {f : α → β} (h : FailsOnly P x) : FailsOnly P (x.map f) := by
  cases x with
  | ok a => exact ok (f a)
  | error e => exact error (h e rfl)

theorem bind {f : α → Except ε β} (h : FailsOnly P x) (next : ∀ a, FailsOnly P (f a)) :
    FailsOnly P (x >>= f) := by
  cases x with
  | ok a => exact next a
  | error e => exact error (h e rfl)

theorem foldlM {f : β → α → Except ε β} (h : ∀ b x, FailsOnly P (f b x)) (xs : List α) (b : β) :
    FailsOnly P (xs.foldlM f b) := by
  induction xs generalizing b with
  | nil => exact ok b
  | cons x xs ih => exact (h b x).bind ih

theorem mapM {f : α → Except ε β} (h : ∀ x, FailsOnly P (f x)) (xs : List α) :
    FailsOnly P (xs.mapM f) := by
  induction xs with
  | nil => exact ok []
  | cons x xs ih =>
    rw [List.mapM_cons]
    exact (h x).bind fun y => ih.bind fun ys => ok (y :: ys)

theorem forM {f : α → Except ε Unit} (h : ∀ x, FailsOnly P (f x)) (xs : List α) :
    FailsOnly P (xs.forM f) := by
  induction xs with
  | nil => exact ok ()
  | cons x xs ih => exact (h x).bind fun _ => ih

end FailsOnly

end RoadFlow
