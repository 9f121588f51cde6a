import Mathlib.Data.List.Forall2

/-!
# Going through lists

Lists that are related one by one, and traversals of a list that stop where the function fails. Most
questions about two programs, or about a document and what it is read as, come down to the same
question about the parts at the same place.

The relation of lists is that of Mathlib, and the traversals are those of the core library. What is
here is what they have to do with each other: a traversal that succeeds relates the list to its
result (`mapM_eq_ok_iff`), and related lists are filtered, searched and traversed alike if related
parts are. Nothing in this module speaks of programs or documents.

Main results:

* `map_eq_map_of_forall₂` and its like — what agrees on related parts agrees on the lists;
* `forall₂_comp_iff` — lists related through a third one;
* `mapM_eq_ok_iff` — a traversal that does not fail gives what the function gives for each part.
-/

namespace ValidatorGen

/-! ## Lists related one by one -/

section Forall₂

variable {α β γ : Type} {R : α → β → Prop}

theorem exists_mem_iff_of_forall₂ {P : α → Prop} {Q : β → Prop} {as : List α} {bs : List β}
    (h : List.Forall₂ R as bs) (hPQ : ∀ a b, R a b → (P a ↔ Q b)) :
    (∃ a ∈ as, P a) ↔ ∃ b ∈ bs, Q b := by
  induction h with
  | nil => simp
  | cons hab _ ih => rw [List.exists_mem_cons_iff, List.exists_mem_cons_iff, hPQ _ _ hab, ih]

theorem any_eq_any_of_forall₂ {p : α → Bool} {q : β → Bool} {as : List α} {bs : List β}
    (h : List.Forall₂ R as bs) (hpq : ∀ a b, R a b → p a = q b) : as.any p = bs.any q := by
  rw [Bool.eq_iff_iff, List.any_eq_true, List.any_eq_true]
  exact exists_mem_iff_of_forall₂ h fun a b hab => by rw [hpq a b hab]

theorem exists_related_of_mem {as : List α} {bs : List β} (h : List.Forall₂ R as bs) {a : α}
    (ha : a ∈ as) : ∃ b ∈ bs, R a b := by
  obtain ⟨i, hi, rfl⟩ := List.getElem_of_mem ha
  have hi' : i < bs.length := h.length_eq ▸ hi
  exact ⟨bs[i], List.getElem_mem hi', h.get hi hi'⟩

theorem map_eq_map_of_forall₂ {f : α → γ} {g : β → γ} {as : List α} {bs : List β}
    (h : List.Forall₂ R as bs) (hfg : ∀ a b, R a b → f a = g b) : as.map f = bs.map g := by
  induction h with
  | nil => rfl
  | cons hab _ ih => rw [List.map_cons, List.map_cons, hfg _ _ hab, ih]

theorem flatMap_eq_flatMap_of_forall₂ {f : α → List γ} {g : β → List γ} {as : List α}
    {bs : List β} (h : List.Forall₂ R as bs) (hfg : ∀ a b, R a b → f a = g b) :
    as.flatMap f = bs.flatMap g := by
  rw [List.flatMap_def, List.flatMap_def, map_eq_map_of_forall₂ h hfg]

theorem findSome?_eq_of_forall₂ {f : α → Option γ} {g : β → Option γ} {as : List α} {bs : List β}
    (h : List.Forall₂ R as bs) (hfg : ∀ a b, R a b → f a = g b) :
    as.findSome? f = bs.findSome? g := by
  induction h with
  | nil => rfl
  | cons hab _ ih => rw [List.findSome?_cons, List.findSome?_cons, hfg _ _ hab, ih]

theorem map_find?_eq_of_forall₂ {p : α → Bool} {q : β → Bool} {f : α → γ} {g : β → γ}
    {as : List α} {bs : List β} (h : List.Forall₂ R as bs) (hpq : ∀ a b, R a b → p a = q b)
    (hfg : ∀ a b, R a b → f a = g b) : (as.find? p).map f = (bs.find? q).map g := by
  induction h with
  | nil => rfl
  | cons hab _ ih =>
    rw [List.find?_cons, List.find?_cons, hpq _ _ hab]
    split
    · exact congrArg some (hfg _ _ hab)
    · exact ih

theorem mapM_eq_mapM_of_forall₂ {ε : Type} {f : α → Except ε γ} {g : β → Except ε γ}
    {as : List α} {bs : List β} (h : List.Forall₂ R as bs) (hfg : ∀ a b, R a b → f a = g b) :
    as.mapM f = bs.mapM g := by
  induction h with
  | nil => rfl
  | cons hab _ ih => rw [List.mapM_cons, List.mapM_cons, hfg _ _ hab, ih]

theorem forall₂_filter {p : α → Bool} {q : β → Bool} {as : List α} {bs : List β}
    (h : List.Forall₂ R as bs) (hpq : ∀ a b, R a b → p a = q b) :
    List.Forall₂ R (as.filter p) (bs.filter q) :=
  List.rel_filter (fun a b hab => Bool.eq_iff_iff.1 (hpq a b hab)) h

/-- Lists are related one by one through a third list. -/
theorem forall₂_comp_iff {S : β → γ → Prop} {as : List α} {cs : List γ} :
    List.Forall₂ (fun a c => ∃ b, R a b ∧ S b c) as cs ↔
      ∃ bs, List.Forall₂ R as bs ∧ List.Forall₂ S bs cs := by
  constructor
  · intro h
    induction h with
    | nil => exact ⟨[], .nil, .nil⟩
    | cons hac _ ih =>
      obtain ⟨b, hab, hbc⟩ := hac
      obtain ⟨bs, hR, hS⟩ := ih
      exact ⟨b :: bs, .cons hab hR, .cons hbc hS⟩
  · rintro ⟨bs, hR, hS⟩
    induction hR generalizing cs with
    | nil =>
      cases hS
      exact .nil
    | cons hab _ ih =>
      cases hS with
      | cons hbc hS => exact .cons ⟨_, hab, hbc⟩ (ih hS)

theorem forall₂_imp_of_mem {S : α → β → Prop} {as : List α} {bs : List β}
    (h : List.Forall₂ R as bs) (hRS : ∀ a ∈ as, ∀ b ∈ bs, R a b → S a b) :
    List.Forall₂ S as bs := by
  induction h with
  | nil => exact .nil
  | @cons a b as bs hab _ ih =>
    refine .cons (hRS a List.mem_cons_self b List.mem_cons_self hab) (ih fun x hx y hy => ?_)
    exact hRS x (List.mem_cons_of_mem a hx) y (List.mem_cons_of_mem b hy)

/-- Pairs with a second list are related through a third list, if no part of it is left over. -/
theorem forall₂_zip_comp_iff {δ : Type} {S : δ × β → γ → Prop} {ds : List δ} {as : List α}
    {cs : List γ} (hLength : as.length ≤ ds.length) :
    List.Forall₂ (fun p c => ∃ b, R p.2 b ∧ S (p.1, b) c) (ds.zip as) cs ↔
      ∃ bs, List.Forall₂ R as bs ∧ List.Forall₂ S (ds.zip bs) cs := by
  induction as generalizing ds cs with
  | nil => simp
  | cons a as ih =>
    cases ds with
    | nil => simp at hLength
    | cons d ds =>
      have hRest := @ih ds
      simp only [List.length_cons, Nat.add_le_add_iff_right] at hLength
      simp only [List.zip_cons_cons, List.forall₂_cons_left_iff, hRest hLength]
      constructor
      · rintro ⟨c, cs, ⟨b, hab, hS⟩, ⟨bs, hR, hSs⟩, rfl⟩
        exact ⟨b :: bs, ⟨b, bs, hab, hR, rfl⟩, .cons hS hSs⟩
      · rintro ⟨_, ⟨b, bs, hab, hR, rfl⟩, hS⟩
        cases hS with
        | cons hS hSs => exact ⟨_, _, ⟨b, hab, hS⟩, ⟨bs, hR, hSs⟩, rfl⟩

end Forall₂

/-! ## Traversals that may fail -/

/-- A traversal gives what the function gives for each element. -/
theorem mapM_eq_ok_iff {α β ε : Type} {f : α → Except ε β} {xs : List α} {ys : List β} :
    xs.mapM f = .ok ys ↔ List.Forall₂ (fun x y => f x = .ok y) xs ys := by
  induction xs generalizing ys with
  | nil =>
    rw [List.mapM_nil, List.forall₂_nil_left_iff]
    exact ⟨fun h => (Except.ok.inj h).symm, fun h => congrArg Except.ok h.symm⟩
  | cons x xs ih =>
    rw [List.mapM_cons, List.forall₂_cons_left_iff]
    constructor
    · intro h
      cases hx : f x with
      -- the first failure ends the traversal
      | error e => rw [hx] at h; cases h
      | ok y =>
        cases hxs : xs.mapM f with
        | error e => rw [hx, hxs] at h; cases h
        | ok rest =>
          rw [hx, hxs] at h
          exact ⟨y, rest, rfl, ih.1 hxs, (Except.ok.inj h).symm⟩
    · rintro ⟨y, rest, hx, hxs, rfl⟩
      rw [hx, ih.2 hxs]
      rfl

/-- A traversal by a function that gives `g x` unless `x` is bad. -/
theorem mapM_eq_ok_iff_of_total {α β ε : Type} {f : α → Except ε β} {Bad : α → Prop} {g : α → β}
    {xs : List α} (hf : ∀ x ∈ xs, ∀ y, f x = .ok y ↔ ¬ Bad x ∧ y = g x) {ys : List β} :
    xs.mapM f = .ok ys ↔ (∀ x ∈ xs, ¬ Bad x) ∧ ys = xs.map g := by
  rw [mapM_eq_ok_iff]
  induction xs generalizing ys with
  | nil => simp
  | cons x xs ih =>
    have hRest := @ih fun a ha => hf a (List.mem_cons_of_mem x ha)
    rw [List.forall₂_cons_left_iff, List.forall_mem_cons, List.map_cons]
    constructor
    · rintro ⟨y, rest, hx, hxs, rfl⟩
      obtain ⟨hGood, rfl⟩ := (hf x List.mem_cons_self y).1 hx
      obtain ⟨hGoods, rfl⟩ := hRest.1 hxs
      exact ⟨⟨hGood, hGoods⟩, rfl⟩
    · rintro ⟨⟨hGood, hGoods⟩, rfl⟩
      exact ⟨g x, xs.map g, (hf x List.mem_cons_self _).2 ⟨hGood, rfl⟩, hRest.2 ⟨hGoods, rfl⟩, rfl⟩

theorem except_bind_eq_ok_iff {α β ε : Type} {x : Except ε α} {f : α → Except ε β} {b : β} :
    x >>= f = .ok b ↔ ∃ a, x = .ok a ∧ f a = .ok b := by
  cases x with
  | error e => exact ⟨(nomatch ·), fun ⟨_, h, _⟩ => nomatch h⟩
  | ok a => exact ⟨fun h => ⟨a, rfl, h⟩, fun ⟨_, h, hf⟩ => Except.ok.inj h ▸ hf⟩

theorem except_bind_eq_error_iff {α β ε : Type} {x : Except ε α} {f : α → Except ε β} {e : ε} :
    x >>= f = .error e ↔ x = .error e ∨ ∃ a, x = .ok a ∧ f a = .error e := by
  cases x with
  | error e' => simp [bind, Except.bind]
  | ok a => simp [bind, Except.bind]

theorem mapError_eq_ok_iff {ε ε' α : Type} {r : Except ε α} {f : ε → ε'} {a : α} :
    r.mapError f = .ok a ↔ r = .ok a := by
  cases r <;> simp [Except.mapError]

theorem mapError_eq_error_iff {ε ε' α : Type} {r : Except ε α} {f : ε → ε'} {e : ε'} :
    r.mapError f = .error e ↔ ∃ d, r = .error d ∧ f d = e := by
  cases r <;> simp [Except.mapError]

theorem except_map_eq_ok_iff {α β ε : Type} {f : α → β} {x : Except ε α} {b : β} :
    x.map f = .ok b ↔ ∃ a, x = .ok a ∧ b = f a := by
  cases x with
  | error e => simp [Except.map]
  | ok a => simp [Except.map, eq_comm]

theorem except_map_eq_error_iff {α β ε : Type} {f : α → β} {x : Except ε α} {e : ε} :
    x.map f = .error e ↔ x = .error e := by
  cases x <;> simp [Except.map]

theorem except_map_map {α β γ ε : Type} {f : α → β} {g : β → γ} (x : Except ε α) :
    (x.map f).map g = x.map (g ∘ f) := by
  cases x <;> rfl

/-- A change of everything that a traversal gives is a change of what the function gives. -/
theorem mapM_map_right {α β γ ε : Type} {f : α → Except ε β} {g : β → γ} (xs : List α) :
    (xs.mapM f).map (List.map g) = xs.mapM fun x => (f x).map g := by
  induction xs with
  | nil => rfl
  | cons x xs ih =>
    rw [List.mapM_cons, List.mapM_cons, ← ih]
    cases f x with
    | error e => rfl
    | ok y => cases xs.mapM f <;> rfl

theorem mapM_congr {α β ε : Type} {f g : α → Except ε β} {xs : List α}
    (h : ∀ x ∈ xs, f x = g x) : xs.mapM f = xs.mapM g := by
  induction xs with
  | nil => rfl
  | cons x xs ih =>
    rw [List.mapM_cons, List.mapM_cons, h x List.mem_cons_self,
      ih fun y hy => h y (List.mem_cons_of_mem x hy)]

end ValidatorGen
