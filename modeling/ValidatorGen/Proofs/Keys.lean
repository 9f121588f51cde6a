import ValidatorGen.Symbol.Table
import ValidatorGen.Proofs.LiteralText

/-!
# What can be told from a key

The key of a type is made of the namespace, and of the names and arities from the outermost
declaration down to the type, with marks in between. If the namespace and the name of the outermost
declaration contain none of these marks, they can be read off any key of a type nested in it.

The marks are a plus sign, a backtick and a colon, and a text that has none of them is *plain*. A
key is cut at its marks from the left: the namespace ends at the colon, a name at the backtick in
front of its arity, and the parts of nested types are divided by plus signs. Only the outermost part
has a namespace, so all keys in one declaration begin alike; this beginning is the root of the key.

Main results:

* `TypeHead.keyIn_none_inj` — the key of an outermost declaration tells its namespace, name and
  arity;
* `Piece.hasRoot_of_mem_ofDeclaration` — the keys of all that is nested in a declaration start with
  the key of the declaration.
-/

namespace ValidatorGen

/-- A text without the marks that keys are made with. -/
def IsPlain (text : String) : Prop :=
  '`' ∉ text.toList ∧ '+' ∉ text.toList ∧ ':' ∉ text.toList

instance (text : String) : Decidable (IsPlain text) :=
  inferInstanceAs (Decidable (_ ∧ _ ∧ _))

/-- The part of a key that belongs to the outermost declaration: up to the first `+`. -/
def rootOf (key : String) : List Char :=
  key.toList.takeWhile (· ≠ '+')

namespace TypeHead

/-- Whether name and namespace of a declaration contain none of the marks of keys. -/
def IsPlain (t : TypeHead) : Prop :=
  ValidatorGen.IsPlain t.name ∧ ∀ name ∈ t.inNamespace, ValidatorGen.IsPlain name

/-- Two declarations of one name: with the same namespace, where an empty one is none, the same name
and the same number of type parameters. -/
def SameName (a b : TypeHead) : Prop :=
  a.ownNamespace? = b.ownNamespace? ∧ a.name = b.name ∧ a.arity = b.arity

instance (t : TypeHead) : Decidable t.IsPlain :=
  inferInstanceAs (Decidable (_ ∧ _))

instance (a b : TypeHead) : Decidable (a.SameName b) :=
  inferInstanceAs (Decidable (_ ∧ _ ∧ _))

/-- A namespace that counts is not empty. -/
theorem ne_empty_of_mem_ownNamespace? {t : TypeHead} {name : String}
    (h : t.ownNamespace? = some name) : name ≠ "" := by
  have hFilter := (Option.filter_eq_some_iff.1 h).2
  simpa using hFilter

theorem IsPlain.notMem_ownNamespace {t : TypeHead} (h : t.IsPlain) {c : Char}
    (hMark : c = '`' ∨ c = '+' ∨ c = ':') : c ∉ (t.ownNamespace?.getD "").toList := by
  cases hOwn : t.ownNamespace? with
  | none => simp
  | some name =>
    obtain ⟨hTick, hPlus, hColon⟩ := h.2 name (Option.filter_eq_some_iff.1 hOwn).1
    rcases hMark with rfl | rfl | rfl
    · exact hTick
    · exact hPlus
    · exact hColon

theorem toList_keyPart (t : TypeHead) :
    t.keyPart.toList = t.name.toList ++ '`' :: Nat.toDigits 10 t.arity := by
  simp only [keyPart, String.toList_append, List.append_assoc, Nat.toList_repr]
  rfl

theorem toList_keyIn_none (t : TypeHead) :
    (t.keyIn none).toList = (t.ownNamespace?.getD "").toList ++ ':' :: ':' ::
      t.keyPart.toList := by
  simp only [keyIn, String.toList_append, List.append_assoc]
  rfl

theorem toList_keyIn_some (outer : String) (t : TypeHead) :
    (t.keyIn (some outer)).toList = outer.toList ++ '+' :: t.keyPart.toList := by
  simp only [keyIn, String.toList_append, List.append_assoc]
  rfl

/-- The part of a key that a head writes tells name and arity. -/
theorem keyPart_inj {a b : TypeHead} (ha : ValidatorGen.IsPlain a.name)
    (hb : ValidatorGen.IsPlain b.name) (h : a.keyPart.toList = b.keyPart.toList) :
    a.name = b.name ∧ a.arity = b.arity := by
  rw [toList_keyPart, toList_keyPart] at h
  -- the name ends at the backtick
  obtain ⟨hName, hDigits⟩ := append_stop_inj (p := (· ≠ '`'))
    (fun c hc => by simpa using fun hTick : c = '`' => ha.1 (hTick ▸ hc))
    (fun c hc => by simpa using fun hTick : c = '`' => hb.1 (hTick ▸ hc))
    (by simp) h
  have hArity := congrArg (Nat.ofDigitChars 10 · 0) hDigits
  simp only [Nat.ofDigitChars_ten_toDigits] at hArity
  exact ⟨String.toList_injective hName, hArity⟩

/-- **The key of an outermost declaration tells its namespace, name and arity.** -/
theorem keyIn_none_inj {a b : TypeHead} (ha : a.IsPlain) (hb : b.IsPlain)
    (h : a.keyIn none = b.keyIn none) : a.SameName b := by
  have hText := congrArg String.toList h
  rw [toList_keyIn_none, toList_keyIn_none] at hText
  -- the namespace ends at the first colon
  obtain ⟨hNamespace, hRest⟩ := append_stop_inj (p := (· ≠ ':'))
    (fun c hc => by
      have hNotMem := ha.notMem_ownNamespace (Or.inr (Or.inr rfl))
      simpa using fun hColon : c = ':' => hNotMem (hColon ▸ hc))
    (fun c hc => by
      have hNotMem := hb.notMem_ownNamespace (Or.inr (Or.inr rfl))
      simpa using fun hColon : c = ':' => hNotMem (hColon ▸ hc))
    (by simp) hText
  obtain ⟨hName, hArity⟩ := keyPart_inj ha.1 hb.1 (List.cons.inj hRest).2
  refine ⟨?_, hName, hArity⟩
  -- no namespace and an empty one are written alike, but an empty one does not count
  have hGetD : a.ownNamespace?.getD "" = b.ownNamespace?.getD "" :=
    String.toList_injective hNamespace
  -- what is left are the four combinations of a namespace and none
  cases hA : a.ownNamespace? with
  | none =>
    cases hB : b.ownNamespace? with
    | none => rfl
    | some name =>
      rw [hA, hB] at hGetD
      exact absurd hGetD.symm (ne_empty_of_mem_ownNamespace? hB)
  | some name =>
    cases hB : b.ownNamespace? with
    | none =>
      rw [hA, hB] at hGetD
      exact absurd hGetD (ne_empty_of_mem_ownNamespace? hA)
    | some other =>
      rw [hA, hB] at hGetD
      exact congrArg some hGetD

theorem IsPlain.plus_notMem_keyPart {t : TypeHead} (h : t.IsPlain) : '+' ∉ t.keyPart.toList := by
  -- name, backtick, digits
  rw [toList_keyPart, List.mem_append, List.mem_cons]
  rintro (hName | hTick | hDigit)
  · exact h.1.2.1 hName
  · exact absurd hTick (by decide)
  · exact absurd (isDigit_of_mem_toDigits_ten hDigit) (by decide)

/-- The key of an outermost declaration has no `+` in it. -/
theorem IsPlain.plus_notMem_keyIn_none {t : TypeHead} (h : t.IsPlain) :
    '+' ∉ (t.keyIn none).toList := by
  -- namespace, two colons, and the part that the head writes
  rw [toList_keyIn_none, List.mem_append, List.mem_cons, List.mem_cons]
  rintro (hNamespace | hColon | hColon | hPart)
  · exact h.notMem_ownNamespace (Or.inr (Or.inl rfl)) hNamespace
  · exact absurd hColon (by decide)
  · exact absurd hColon (by decide)
  · exact h.plus_notMem_keyPart hPart

/-- So it is a root. -/
theorem rootOf_keyIn_none {t : TypeHead} (h : t.IsPlain) :
    rootOf (t.keyIn none) = (t.keyIn none).toList := by
  have hNotPlus := h.plus_notMem_keyIn_none
  have hAll : ∀ c ∈ (t.keyIn none).toList, decide (c ≠ '+') = true :=
    fun c hc => decide_eq_true fun hPlus : c = '+' => hNotPlus (hPlus ▸ hc)
  have hEnd : ∀ c ∈ ([] : List Char).head?, decide (c ≠ '+') = false := fun _ hc => nomatch hc
  have hWhole := (span_append_of_stop hAll hEnd).1
  rwa [List.append_nil] at hWhole

/-- The key of a nested type starts with that of the type around it. -/
theorem rootOf_keyIn_some (outer : String) (t : TypeHead) :
    rootOf (t.keyIn (some outer)) = rootOf outer := by
  rw [rootOf, toList_keyIn_some, rootOf]
  generalize outer.toList = cs
  induction cs with
  | nil => rfl
  | cons c cs ih =>
    rw [List.cons_append, List.takeWhile_cons, List.takeWhile_cons, ih]

end TypeHead

/-! ## The keys of nested declarations -/

namespace Piece

/-- Whether the keys that a piece speaks of have a root. It speaks of its own key and of that of the
type around it. -/
def HasRoot (root : List Char) (p : Piece) : Prop :=
  rootOf p.key = root ∧ ∀ outer ∈ p.parent, rootOf outer = root

/-- Declarations in a type have the root of the key of the type. -/
theorem hasRoot_of_mem_ofDeclarations (path outer : String) (ds : List TypeDeclaration) :
    ∀ p ∈ ofDeclarations path (some outer) ds, p.HasRoot (rootOf outer) := by
  refine forall_mem_ofDeclarations (Q := fun outer p => p.HasRoot (rootOf outer))
    (fun outer head nested => ⟨?_, ?_⟩) ?_ outer ds
  · exact head.rootOf_keyIn_some outer
  · exact fun around hAround => by rw [Option.some.inj hAround]
  · intro outer head p hp
    rwa [head.rootOf_keyIn_some outer] at hp

/-- **The keys of all that is nested in a declaration have the root of its key.** -/
theorem hasRoot_of_mem_ofDeclaration (path : String) (parent : Option String)
    (d : TypeDeclaration) :
    ∀ p ∈ ofDeclaration path parent d, p.HasRoot (rootOf (d.head.keyIn parent)) := by
  obtain ⟨head, nested⟩ := d
  intro p hp
  rw [ofDeclaration] at hp
  rcases List.mem_cons.1 hp with rfl | hp
  · refine ⟨rfl, fun outer hOuter => ?_⟩
    obtain rfl : parent = some outer := hOuter
    exact (head.rootOf_keyIn_some outer).symm
  · exact hasRoot_of_mem_ofDeclarations path (head.keyIn parent) nested p hp

end Piece

end ValidatorGen
