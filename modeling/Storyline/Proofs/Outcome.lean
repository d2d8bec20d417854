import Mathlib.Data.List.Forall2
import Storyline.Logged

/-!
# Outcomes

How a row of computations that may fail, with or without warnings, is taken apart.

## Main definitions

* `Except.fault?`: the fault of a computation, if it has no result
* `Except.Gives`: every result of a computation has a property

## Main results

* `Except.bind_eq_ok_iff`: two computations in a row
* `Except.mapM_eq_ok_iff`: one computation for each element of a list
* `Except.fault?_mapM`: the first of them that fails decides how all of them fail
* `Logged.result_bind`: two computations with warnings in a row
* `Logged.bind_assoc`: three of them
* `Logged.result_bind_eq_error`: where the fault of two computations in a row comes from
-/

namespace Except

variable {ε α β : Type}

/-- Two computations in a row have a result exactly when both have one. -/
theorem bind_eq_ok_iff {x : Except ε α} {f : α → Except ε β} {b : β} :
    x >>= f = .ok b ↔ ∃ a, x = .ok a ∧ f a = .ok b := by
  cases x with
  | error e =>
    constructor
    · intro h
      cases h
    · rintro ⟨_, h, _⟩
      cases h
  | ok a =>
    constructor
    · intro h
      exact ⟨a, rfl, h⟩
    · rintro ⟨_, h, hb⟩
      cases h
      exact hb

theorem map_eq_ok_iff {f : α → β} {x : Except ε α} {b : β} :
    x.map f = .ok b ↔ ∃ a, x = .ok a ∧ f a = b := by
  cases x with
  | error e =>
    constructor
    · intro h
      cases h
    · rintro ⟨_, h, _⟩
      cases h
  | ok a =>
    constructor
    · intro h
      exact ⟨a, rfl, Except.ok.inj h⟩
    · rintro ⟨_, h, rfl⟩
      cases h
      rfl

theorem eq_error_of_map {f : α → β} {x : Except ε α} {e : ε} (h : x.map f = .error e) :
    x = .error e := by
  cases x with
  | error d =>
    cases h
    rfl
  | ok a => cases h

theorem map_eq_error_iff {f : α → β} {x : Except ε α} {e : ε} :
    x.map f = .error e ↔ x = .error e := by
  refine ⟨eq_error_of_map, ?_⟩
  rintro rfl
  rfl

theorem exists_of_isOk {x : Except ε α} (h : x.isOk = true) : ∃ a, x = .ok a := by
  cases x with
  | error e => cases h
  | ok a => exact ⟨a, rfl⟩

/-- A computation for each element of a list has results exactly when it has one for each. -/
theorem mapM_eq_ok_iff {f : α → Except ε β} {xs : List α} {ys : List β} :
    xs.mapM f = .ok ys ↔ List.Forall₂ (fun x y => f x = .ok y) xs ys := by
  induction xs generalizing ys with
  | nil =>
    constructor
    · intro h
      cases h
      exact .nil
    · intro h
      cases h
      rfl
  | cons x xs ih =>
    rw [List.mapM_cons, bind_eq_ok_iff]
    constructor
    · rintro ⟨y, hy, h⟩
      obtain ⟨zs, hzs, h⟩ := bind_eq_ok_iff.1 h
      cases h
      exact .cons hy (ih.1 hzs)
    · intro h
      cases h with
      | cons hy hzs => exact ⟨_, hy, bind_eq_ok_iff.2 ⟨_, ih.2 hzs, rfl⟩⟩

/-- The result for an element is among the results. -/
theorem exists_mem_of_mapM {f : α → Except ε β} {xs : List α} {ys : List β}
    (h : xs.mapM f = .ok ys) {x : α} (hx : x ∈ xs) : ∃ y ∈ ys, f x = .ok y := by
  rw [mapM_eq_ok_iff] at h
  induction h with
  | nil => cases hx
  | @cons z y zs ys hy hys ih =>
    rcases List.mem_cons.1 hx with rfl | hx
    · exact ⟨y, List.mem_cons_self, hy⟩
    · obtain ⟨y', hmem, hy'⟩ := ih hx
      exact ⟨y', List.mem_cons_of_mem y hmem, hy'⟩

/-- A result among the results is that for some element. -/
theorem exists_of_mem_mapM {f : α → Except ε β} {xs : List α} {ys : List β}
    (h : xs.mapM f = .ok ys) {y : β} (hy : y ∈ ys) : ∃ x ∈ xs, f x = .ok y := by
  rw [mapM_eq_ok_iff] at h
  induction h with
  | nil => cases hy
  | @cons x z xs ys hx hxs ih =>
    rcases List.mem_cons.1 hy with rfl | hy
    · exact ⟨x, List.mem_cons_self, hx⟩
    · obtain ⟨x', hmem, hx'⟩ := ih hy
      exact ⟨x', List.mem_cons_of_mem x hmem, hx'⟩

/-- A computation for each element of a list has results exactly when each has one. -/
theorem exists_mapM_iff {f : α → Except ε β} {xs : List α} :
    (∃ ys, xs.mapM f = .ok ys) ↔ ∀ x ∈ xs, ∃ y, f x = .ok y := by
  induction xs with
  | nil =>
    constructor
    · intro _ x hx
      cases hx
    · intro _
      exact ⟨[], rfl⟩
  | cons x xs ih =>
    rw [List.forall_mem_cons, ← ih]
    constructor
    · rintro ⟨ys, h⟩
      rw [List.mapM_cons, bind_eq_ok_iff] at h
      obtain ⟨y, hy, h⟩ := h
      obtain ⟨zs, hzs, -⟩ := bind_eq_ok_iff.1 h
      exact ⟨⟨y, hy⟩, zs, hzs⟩
    · rintro ⟨⟨y, hy⟩, zs, hzs⟩
      exact ⟨y :: zs, by rw [List.mapM_cons, hy, hzs]; rfl⟩

/-- What comes after a computation that has a result whatever the first is. -/
theorem exists_bind_iff {x : Except ε α} {f : α → Except ε β} (hf : ∀ a, ∃ b, f a = .ok b) :
    (∃ b, x >>= f = .ok b) ↔ ∃ a, x = .ok a := by
  constructor
  · rintro ⟨b, h⟩
    obtain ⟨a, ha, -⟩ := bind_eq_ok_iff.1 h
    exact ⟨a, ha⟩
  · rintro ⟨a, rfl⟩
    exact hf a

/-- Two computations of which the second has a result or not whatever the first gives. -/
theorem exists_bind_iff_and {x : Except ε α} {f : α → Except ε β} {p : Prop}
    (hf : ∀ a, (∃ b, f a = .ok b) ↔ p) : (∃ b, x >>= f = .ok b) ↔ (∃ a, x = .ok a) ∧ p := by
  constructor
  · rintro ⟨b, h⟩
    obtain ⟨a, ha, hb⟩ := bind_eq_ok_iff.1 h
    exact ⟨⟨a, ha⟩, (hf a).1 ⟨b, hb⟩⟩
  · rintro ⟨⟨a, rfl⟩, h⟩
    exact (hf a).2 h

theorem exists_map_iff {f : α → β} {x : Except ε α} :
    (∃ b, x.map f = .ok b) ↔ ∃ a, x = .ok a := by
  cases x with
  | ok a => exact iff_of_true ⟨f a, rfl⟩ ⟨a, rfl⟩
  | error e => exact iff_of_false nofun nofun

/-- What comes after a computation that has a result. -/
theorem exists_bind_of_eq {x : Except ε α} {f : α → Except ε β} {a : α} (hx : x = .ok a)
    (hf : ∃ b, f a = .ok b) : ∃ b, x >>= f = .ok b := by
  rw [hx]
  exact hf

/-! ## Faults -/

/-- The fault of a computation, if it has no result. -/
def fault? : Except ε α → Option ε
  | .ok _ => none
  | .error e => some e

theorem fault?_eq_none_iff {x : Except ε α} : x.fault? = none ↔ ∃ a, x = .ok a := by
  cases x with
  | ok a => exact iff_of_true rfl ⟨a, rfl⟩
  | error e => exact iff_of_false nofun nofun

theorem fault?_eq_some_iff {x : Except ε α} {e : ε} : x.fault? = some e ↔ x = .error e := by
  cases x with
  | ok a => exact iff_of_false nofun nofun
  | error d => exact ⟨fun h => congrArg _ (Option.some.inj h), fun h => congrArg _ (error.inj h)⟩

/-- Of two computations in a row the first that fails decides. -/
theorem fault?_bind {x : Except ε α} {f : α → Except ε β} {o : Option ε}
    (hf : ∀ a, x = .ok a → (f a).fault? = o) : (x >>= f).fault? = x.fault?.or o := by
  cases x with
  | ok a => exact hf a rfl
  | error e => rfl

/-- A computation whose result is only put into another form. -/
theorem fault?_map (x : Except ε α) (f : α → β) : (x >>= fun a => .ok (f a)).fault? = x.fault? := by
  cases x <;> rfl

theorem fault?_mapError {δ : Type} (x : Except ε α) (f : ε → δ) :
    (x.mapError f).fault? = x.fault?.map f := by
  cases x <;> rfl

/-- Of computations for the elements of a list the first that fails decides. -/
theorem fault?_mapM (f : α → Except ε β) (xs : List α) :
    (xs.mapM f).fault? = xs.findSome? fun x => (f x).fault? := by
  induction xs with
  | nil => rfl
  | cons x xs ih =>
    have hcons : ((x :: xs).mapM f).fault? = (f x).fault?.or (xs.mapM f).fault? := by
      rw [List.mapM_cons]
      exact fault?_bind fun y _ => fault?_map (xs.mapM f) (y :: ·)
    rw [hcons, ih, List.findSome?_cons]
    cases (f x).fault? <;> rfl

/-! ## Properties of results -/

/-- Whether the result of a computation has a property, if there is a result. -/
def Gives (x : Except ε α) (P : α → Prop) : Prop :=
  ∀ a, x = .ok a → P a

variable {P : α → Prop} {Q : β → Prop}

theorem gives_ok {a : α} (h : P a) : (.ok a : Except ε α).Gives P := by
  intro b hb
  cases hb
  exact h

theorem gives_error (e : ε) : (.error e : Except ε α).Gives P := by
  intro a h
  cases h

theorem Gives.bind {x : Except ε α} {f : α → Except ε β} (hx : x.Gives P)
    (hf : ∀ a, P a → (f a).Gives Q) : (x >>= f).Gives Q := by
  intro b h
  obtain ⟨a, ha, hb⟩ := bind_eq_ok_iff.1 h
  exact hf a (hx a ha) b hb

theorem Gives.map {x : Except ε α} {f : α → β} (hx : x.Gives P) (hf : ∀ a, P a → Q (f a)) :
    (x.map f).Gives Q := by
  intro b h
  obtain ⟨a, ha, rfl⟩ := map_eq_ok_iff.1 h
  exact hf a (hx a ha)

/-- A computation of which only the value goes on. -/
theorem gives_bind {x : Except ε α} {f : α → Except ε β} (hf : ∀ a, (f a).Gives Q) :
    (x >>= f).Gives Q :=
  Gives.bind (P := fun _ => True) (fun _ _ => trivial) fun a _ => hf a

theorem gives_mapM {f : α → Except ε β} {xs : List α} (hf : ∀ x ∈ xs, (f x).Gives Q) :
    (xs.mapM f).Gives fun ys => ∀ y ∈ ys, Q y := by
  intro ys h y hy
  obtain ⟨x, hx, hxy⟩ := exists_of_mem_mapM h hy
  exact hf x hx y hxy

end Except

namespace Storyline.Logged

variable {ε δ α β : Type}

/-- The outcome of two computations in a row, warnings aside. -/
theorem result_bind (x : Logged ε α) (f : α → Logged ε β) :
    (x >>= f).result = x.result >>= fun a => (f a).result := by
  cases hx : x.result with
  | error e =>
    rw [result_bind_error hx]
    rfl
  | ok a =>
    rw [result_bind_ok hx]
    rfl

/-- Where three computations in a row are grouped makes no difference, neither to the result nor to
the warnings. -/
protected theorem bind_assoc {γ : Type} (x : Logged ε α) (f : α → Logged ε β) (g : β → Logged ε γ) :
    x >>= f >>= g = x >>= fun a => f a >>= g := by
  obtain ⟨warnings, result⟩ := x
  change andThen (andThen _ f) g = andThen _ fun a => andThen (f a) g
  cases result with
  | error e => rfl
  | ok a =>
    cases hf : (f a).result with
    | error e => simp only [andThen, hf]
    | ok b => simp only [andThen, hf, List.append_assoc]

/-- The fault of two computations in a row is that of the first or that of the second. -/
theorem result_bind_eq_error {x : Logged ε α} {f : α → Logged ε β} {e : ε}
    (h : (x >>= f).result = .error e) :
    x.result = .error e ∨ ∃ a, x.result = .ok a ∧ (f a).result = .error e := by
  cases hx : x.result with
  | error d =>
    rw [result_bind_error hx] at h
    cases h
    exact .inl rfl
  | ok a =>
    rw [result_bind_ok hx] at h
    exact .inr ⟨a, rfl, h⟩

/-- What every step of computations in turn keeps holds of the result. -/
theorem gives_foldlM {f : β → α → Logged ε β} {as : List α} {P : β → Prop}
    (hf : ∀ b, P b → ∀ a ∈ as, (f b a).result.Gives P) {b : β} (hb : P b) :
    (as.foldlM f b).result.Gives P := by
  induction as generalizing b with
  | nil => exact Except.gives_ok hb
  | cons a as ih =>
    rw [List.foldlM_cons, result_bind]
    exact (hf b hb a List.mem_cons_self).bind fun b' hb' =>
      ih (fun c hc d hd => hf c hc d (List.mem_cons_of_mem a hd)) hb'

theorem result_mapError_eq_ok {f : ε → δ} {x : Logged ε α} {a : α}
    (h : (x.mapError f).result = .ok a) : x.result = .ok a := by
  obtain ⟨w, r⟩ := x
  cases r with
  | error e => cases h
  | ok b => cases h; rfl

theorem result_mapError_eq_error {f : ε → δ} {x : Logged ε α} {e : δ}
    (h : (x.mapError f).result = .error e) : ∃ d, x.result = .error d ∧ f d = e := by
  obtain ⟨w, r⟩ := x
  cases r with
  | error d => cases h; exact ⟨d, rfl, rfl⟩
  | ok b => cases h

end Storyline.Logged
