import Mathlib.Data.List.Perm.Subperm
import ValidatorGen.Fixture.Verdict
import ValidatorGen.Proofs.DocumentPrefix

/-!
# Expected diagnostics, as written

Which texts list expected diagnostics. Such a text begins with a list; what follows the list does
not matter. Each entry of the list is an object or a list with a code and perhaps a message, and
nothing else. Because a name that is given twice is refused while an entry is read, and entries hold
only texts besides, an accepted list is a document with distinct names, and it can be looked at as a
value.

The way goes from the text to the written document, from there to the value, and from the value to
the entries. On the first step what follows the list is cut off, as for all documents that are read
from texts. The second needs that no name is given twice, because a value forgets a repeated name
while the reader of entries refuses it. The third is a finite check: there are two fields, so an
object has at most two members.

Main results:

* `Schema.distinctNames_of_conformWritten` — what is accepted against a shape that leaves nothing
  open gives no name twice;
* `ExpectedDiagnostic.isEntry_of_conform`, `ExpectedDiagnostic.conform_of_isEntry` — the values that
  are accepted as an entry;
* `ExpectedDiagnostic.listOfText_eq_ok_iff` — the texts that list entries.
-/

namespace ValidatorGen

open Json (Written Position ListEnd ObjectEnd)

/-! ## Names in what is accepted -/

/-- A shape in which every member of every object has to be a field of a record. Under such a shape
the reader sees every name that is written, and refuses one that it has seen before. -/
def Shape.IsClosed {ρ : Type} : Shape ρ → Prop
  | .anything | .members => False
  | .listOf item => item.IsClosed
  | _ => True

namespace Schema

variable {ρ : Type} {schema : Schema ρ} {shape : Shape ρ} {x : Json}

/-- What is accepted against a closed shape gives no name twice in an object. -/
theorem distinctNames_of_conformWritten
    (hSchema : ∀ type, ∀ field ∈ (schema type).fields, field.shape.IsClosed)
    {w : Written} (hShape : shape.IsClosed) (h : conformWritten schema shape w = .ok x) :
    w.DistinctNames := by
  induction w using Written.induction generalizing shape x with
  | scalar start value finish => exact .scalar start value finish
  | broken start fragment breach => exact .broken start fragment breach
  | list start items ending ih =>
    refine .list fun item hItem => ?_
    cases shape with
    | listOf each =>
      obtain ⟨xs, -, hItems, -⟩ := conformWritten_list_listOf_eq_ok_iff.1 h
      obtain ⟨y, -, hAccepted⟩ :=
        exists_related_of_mem (conformWrittenItems_eq_ok_iff.1 hItems) hItem
      have hEach : each.IsClosed := hShape
      exact ih item hItem hEach hAccepted
    | record type =>
      obtain ⟨read, -, hRead, hLength, -⟩ := conformWritten_list_record_eq_ok_iff.1 h
      -- there is a field for every item
      obtain ⟨p, hPair, rfl⟩ : ∃ p ∈ (schema type).fields.zip items, p.2 = item :=
        List.mem_map.1 ((List.map_snd_zip hLength).symm ▸ hItem)
      obtain ⟨r, -, -, hAccepted⟩ :=
        exists_related_of_mem (conformWrittenElements_eq_ok_iff.1 hRead) hPair
      exact ih p.2 hItem (hSchema type p.1 (List.of_mem_zip hPair).1) hAccepted
    | anything => exact hShape.elim
    | members => exact hShape.elim
    | _ => simp [conformWritten] at h
  -- a choice has one member with nothing in it, a record has names that are all different
  | object start members ending ih =>
    cases shape with
    | oneOf names =>
      have hChoice : choiceOfObject names members ending = .ok x := by
        simpa [conformWritten] using h
      obtain ⟨m, first, finish, -, -, hContent, rfl, -⟩ := choiceOfObject_eq_ok_iff.1 hChoice
      refine .object (List.pairwise_singleton _ _) (List.forall_mem_singleton.2 ?_)
      rw [hContent]
      exact .scalar first .null finish
    | record type =>
      obtain ⟨read, -, hRead, -⟩ := conformWritten_object_record_eq_ok_iff.1 h
      obtain ⟨hNames, -, new, hNew, -⟩ := conformWrittenMembers_eq_ok_iff.1 hRead
      refine .object hNames fun m hm => ?_
      obtain ⟨r, -, -, field, hField, hAccepted⟩ := exists_related_of_mem hNew hm
      exact ih m hm (hSchema type field (List.mem_of_find?_eq_some hField)) hAccepted
    | anything => exact hShape.elim
    | members => exact hShape.elim
    | _ => simp [conformWritten] at h

theorem isScalar_of_conformWritten_listOf {item : Shape ρ} {w : Written}
    (h : conformWritten schema (.listOf item) w = .ok x) : w.isScalar = false := by
  cases w with
  | scalar start value finish =>
    have hScalar := conformWritten_scalar_eq_ok_iff.1 h
    simp [Shape.ofScalar] at hScalar
  | _ => rfl

theorem exists_array_of_conform_listOf {item : Shape ρ} {v : Json}
    (h : conform schema (.listOf item) v = .ok x) : ∃ values, v = .array values := by
  cases v with
  | array values => exact ⟨values, rfl⟩
  | _ => simp [conform, Shape.ofScalar, Except.mapError] at h

/-- A text is read against a closed shape of lists as the value is with which it begins. -/
theorem read_listOf_eq_ok_iff
    (hSchema : ∀ type, ∀ field ∈ (schema type).fields, field.shape.IsClosed) {item : Shape ρ}
    (hItem : item.IsClosed) {text : String} :
    read schema (.listOf item) text = .ok x ↔
      ∃ document rest values xs, text = document ++ rest ∧ Json.IsSingleDocument document ∧
        Json.parse document = .ok (.array values) ∧
        List.Forall₂ (fun v x => conform schema item v = .ok x) values xs ∧ x = .array xs := by
  rw [read_eq_ok_iff_of_isScalar isScalar_of_conformWritten_listOf]
  constructor
  · rintro ⟨document, rest, hText, ⟨v, hParse⟩, hRead⟩
    -- nothing but blanks follows the value, and no name is given twice in it
    have hList : (Shape.listOf item).IsClosed := hItem
    have hDocument : Json.IsSingleDocument document :=
      { blank_after := fun after hAfter => by
          obtain ⟨-, other, hOther, hBlank⟩ := Json.parse_eq_ok_iff.1 hParse
          exact Except.ok.inj (hOther.symm.trans hAfter) ▸ hBlank
        distinctNames := distinctNames_of_conformWritten hSchema hList hRead }
    obtain ⟨v, hParse, hAccepted⟩ := (read_eq_ok_iff hDocument).1 hRead
    obtain ⟨values, rfl⟩ := exists_array_of_conform_listOf hAccepted
    obtain ⟨xs, hItems, hX⟩ := conform_array_listOf_eq_ok_iff.1 hAccepted
    exact ⟨document, rest, values, xs, hText, hDocument, hParse,
      conformItems_eq_ok_iff.1 hItems, hX⟩
  · rintro ⟨document, rest, values, xs, hText, hDocument, hParse, hValues, rfl⟩
    refine ⟨document, rest, hText, ⟨_, hParse⟩, (read_eq_ok_iff hDocument).2 ⟨_, hParse, ?_⟩⟩
    exact conform_array_listOf_eq_ok_iff.2 ⟨xs, conformItems_eq_ok_iff.2 hValues, rfl⟩

end Schema

namespace Json

/-- The names in an object are different if no object in the text gave a name twice. -/
theorem nodup_names_of_toJson {w : Written} (hDistinct : w.DistinctNames)
    {members : List (String × Json)} (h : w.toJson = .ok (.object members)) :
    (members.map Prod.fst).Nodup := by
  cases hDistinct with
  | scalar start value finish => cases value <;> cases h
  | broken start fragment breach => cases h
  | list =>
    obtain ⟨_, _, -, -, hValue⟩ := Written.toJson_list_eq_ok_iff.1 h
    cases hValue
  | object hNames =>
    obtain ⟨_, _, hMembers, -, hValue⟩ := Written.toJson_object_eq_ok_iff.1 h
    cases hValue
    obtain ⟨new, hNew, hAll⟩ :=
      (membersToJson_eq_ok_iff hNames fun _ _ => List.not_mem_nil).1 hMembers
    rw [List.nil_append] at hAll
    subst hAll
    rwa [← map_eq_map_of_forall₂ hNew fun m r hr => hr.1.symm]

theorem IsSingleDocument.nodup_names {document : String} (hDocument : IsSingleDocument document)
    {values : List Json} (hParse : parse document = .ok (.array values))
    {members : List (String × Json)} (h : .object members ∈ values) :
    (members.map Prod.fst).Nodup := by
  have hDistinct := hDocument.distinctNames
  have hValue := hDocument.parse_eq_ok_iff.1 hParse
  -- only a list is read as a list of values, and its items have distinct names as well
  generalize (Written.read document).1 = w at hDistinct hValue
  cases hDistinct with
  | scalar start value finish => cases value <;> cases hValue
  | broken start fragment breach => cases hValue
  | list hItems =>
    obtain ⟨_, _, hToJson, -, hSame⟩ := Written.toJson_list_eq_ok_iff.1 hValue
    cases hSame
    obtain ⟨item, hItem, hRelated⟩ :=
      exists_related_of_mem (itemsToJson_eq_ok_iff.1 hToJson).flip h
    exact nodup_names_of_toJson (hItems item hItem) hRelated
  | object =>
    obtain ⟨_, _, -, -, hSame⟩ := Written.toJson_object_eq_ok_iff.1 hValue
    cases hSame

end Json

namespace Fixture.ExpectedDiagnostic

/-- A value that is an entry: an object that has a code, or a code and a message in any order, or
the same as a list, the code first. A message may be null. The constructors are all the ways in
which an entry can be written. -/
inductive IsEntry : Json → ExpectedDiagnostic → Prop
  | code (code : String) : IsEntry (.object [("code", .string code)]) ⟨code, none⟩
  | codeMessage (code : String) (message : Option String) :
    IsEntry (.object [("code", .string code), ("message", .ofOptionalText message)]) ⟨code, message⟩
  | messageCode (code : String) (message : Option String) :
    IsEntry (.object [("message", .ofOptionalText message), ("code", .string code)]) ⟨code, message⟩
  | codeElement (code : String) : IsEntry (.array [.string code]) ⟨code, none⟩
  | elements (code : String) (message : Option String) :
    IsEntry (.array [.string code, .ofOptionalText message]) ⟨code, message⟩

theorem conform_text_iff {v x : Json} :
    Schema.conform schema .text v = .ok x ↔ ∃ s, v = .string s ∧ x = .string s := by
  cases v <;> simp [Schema.conform, Shape.ofScalar, Except.mapError, Json.ofScalar, eq_comm]

theorem conform_optionalText_iff {v x : Json} :
    Schema.conform schema .optionalText v = .ok x ↔
      ∃ m, v = .ofOptionalText m ∧ x = .ofOptionalText m := by
  constructor
  · intro h
    cases v with
    | null => exact ⟨none, rfl, (Except.ok.inj h).symm⟩
    | string s => exact ⟨some s, rfl, (Except.ok.inj h).symm⟩
    | _ => simp [Schema.conform, Shape.ofScalar, Except.mapError, Schema.mistyped] at h
  · rintro ⟨m, rfl, rfl⟩
    cases m <;> rfl

/-- A member that is read is a code or a message, and is read as it is. -/
theorem cases_of_readsMember {m r : String × Json}
    (h : Schema.ReadsMember schema (schema ()) m r) :
    r = m ∧ ((∃ s, m = ("code", .string s)) ∨ ∃ t, m = ("message", .ofOptionalText t)) := by
  obtain ⟨name, value⟩ := m
  obtain ⟨hName, field, hField, hAccepted⟩ := h
  obtain rfl : field.name = name := by simpa using List.find?_some hField
  have hMem : field ∈ (schema ()).fields := List.mem_of_find?_eq_some hField
  rcases List.mem_cons.1 hMem with rfl | hMem
  · obtain ⟨s, rfl, hValue⟩ := conform_text_iff.1 hAccepted
    exact ⟨Prod.ext hName hValue, .inl ⟨s, rfl⟩⟩
  · obtain rfl := List.mem_singleton.1 hMem
    obtain ⟨t, rfl, hValue⟩ := conform_optionalText_iff.1 hAccepted
    exact ⟨Prod.ext hName hValue, .inr ⟨t, rfl⟩⟩

theorem isEntry_of_members {members : List (String × Json)} {x : Json}
    (hNames : (members.map Prod.fst).Nodup)
    (hMembers : ∀ m ∈ members, (∃ s, m = ("code", .string s)) ∨
      ∃ t, m = ("message", .ofOptionalText t))
    (hFilled : (schema ()).ofMembers members = .ok x) :
    IsEntry (.object members) (ofDocument x) := by
  match members with
  | [] => cases hFilled
  | [m] =>
    obtain ⟨s, rfl⟩ | ⟨t, rfl⟩ := hMembers m List.mem_cons_self
    · cases hFilled
      exact .code s
    · cases hFilled
  | [m, n] =>
    obtain ⟨s, rfl⟩ | ⟨t, rfl⟩ := hMembers m List.mem_cons_self
    -- two members are a code and a message in one order or the other, not two of a kind
    · obtain ⟨s', rfl⟩ | ⟨t, rfl⟩ := hMembers n (List.mem_cons_of_mem _ List.mem_cons_self)
      · simp at hNames
      · cases hFilled
        cases t <;> exact .codeMessage s _
    · obtain ⟨s, rfl⟩ | ⟨t', rfl⟩ := hMembers n (List.mem_cons_of_mem _ List.mem_cons_self)
      · cases hFilled
        cases t <;> exact .messageCode s _
      · simp at hNames
  | m :: n :: k :: rest =>
    -- there are only two names
    have hOnly : (m :: n :: k :: rest).map Prod.fst ⊆ ["code", "message"] := by
      intro name hName
      obtain ⟨m, hm, rfl⟩ := List.mem_map.1 hName
      obtain ⟨s, rfl⟩ | ⟨t, rfl⟩ := hMembers m hm <;> simp
    have hLength := (List.subperm_of_subset hNames hOnly).length_le
    simp at hLength

theorem isEntry_of_conform {v x : Json}
    (hNames : ∀ members, v = .object members → (members.map Prod.fst).Nodup)
    (h : Schema.conform schema (.record ()) v = .ok x) : IsEntry v (ofDocument x) := by
  cases v with
  | array items =>
    obtain ⟨read, hRead, hLength, hFilled⟩ := Schema.conform_array_record_eq_ok_iff.1 h
    have hElements := Schema.conformElements_eq_ok_iff.1 hRead
    -- A record may be written as a list of its fields in order. The code is required, the message
    -- is not, and more than two elements are too many.
    match items with
    | [] =>
      obtain rfl := List.forall₂_nil_left_iff.1 hElements
      cases hFilled
    | [code] =>
      obtain ⟨r, _, ⟨hName, hCode⟩, hRest, rfl⟩ := List.forall₂_cons_left_iff.1 hElements
      obtain ⟨s, rfl, hText⟩ := conform_text_iff.1 hCode
      obtain rfl := List.forall₂_nil_left_iff.1 hRest
      obtain rfl : r = ("code", .string s) := Prod.ext hName hText
      cases hFilled
      exact .codeElement s
    | [code, message] =>
      obtain ⟨r, _, ⟨hName, hCode⟩, hRest, rfl⟩ := List.forall₂_cons_left_iff.1 hElements
      obtain ⟨r', _, ⟨hName', hMessage⟩, hRest', rfl⟩ := List.forall₂_cons_left_iff.1 hRest
      obtain ⟨s, rfl, hText⟩ := conform_text_iff.1 hCode
      obtain ⟨t, rfl, hText'⟩ := conform_optionalText_iff.1 hMessage
      obtain rfl := List.forall₂_nil_left_iff.1 hRest'
      obtain rfl : r = ("code", .string s) := Prod.ext hName hText
      obtain rfl : r' = ("message", .ofOptionalText t) := Prod.ext hName' hText'
      cases hFilled
      cases t <;> exact .elements s _
    | _ :: _ :: _ :: _ => exact absurd hLength (by simp [schema])
  | object members =>
    obtain ⟨read, hRead, hFilled⟩ := Schema.conform_object_record_eq_ok_iff.1 h
    have hCases := forall₂_imp_of_mem (Schema.conformMembers_eq_ok_iff.1 hRead)
      fun m _ r _ => cases_of_readsMember
    -- No field of the record changes the value it reads, so the members read are those written.
    have hSame : members = read := by
      simpa using map_eq_map_of_forall₂ hCases fun m r hr => hr.1.symm
    subst hSame
    refine isEntry_of_members (hNames members rfl) (fun m hm => ?_) hFilled
    obtain ⟨r, -, -, hForm⟩ := exists_related_of_mem hCases hm
    exact hForm
  | _ => simp [Schema.conform, Shape.ofScalar, Except.mapError] at h

theorem conform_of_isEntry {v : Json} {e : ExpectedDiagnostic} (h : IsEntry v e) :
    ∃ x, Schema.conform schema (.record ()) v = .ok x ∧ ofDocument x = e := by
  rcases h with code | ⟨code, message⟩ | ⟨code, message⟩ | code | ⟨code, message⟩
  · exact ⟨_, rfl, rfl⟩
  · cases message <;> exact ⟨_, rfl, rfl⟩
  · cases message <;> exact ⟨_, rfl, rfl⟩
  · exact ⟨_, rfl, rfl⟩
  · cases message <;> exact ⟨_, rfl, rfl⟩

theorem isClosed_of_mem_fields (type : Unit) :
    ∀ field ∈ (schema type).fields, field.shape.IsClosed :=
  List.forall_mem_cons.2 ⟨trivial, List.forall_mem_singleton.2 trivial⟩

/-- The entries that a value is read as, item by item. -/
theorem forall₂_isEntry_iff {values : List Json} {entries : List ExpectedDiagnostic}
    (hNames : ∀ members, .object members ∈ values → (members.map Prod.fst).Nodup) :
    List.Forall₂ IsEntry values entries ↔
      ∃ xs, List.Forall₂ (fun v x => Schema.conform schema (.record ()) v = .ok x) values xs ∧
        entries = xs.map ofDocument := by
  constructor
  · intro h
    have hBoth : List.Forall₂ (fun v e => ∃ x, Schema.conform schema (.record ()) v = .ok x ∧
        ofDocument x = e) values entries := h.imp fun v e => conform_of_isEntry
    obtain ⟨xs, hValues, hEntries⟩ := forall₂_comp_iff.1 hBoth
    -- the entries are read off the completed items
    have hSame : xs.map ofDocument = entries.map id := map_eq_map_of_forall₂ hEntries fun _ _ h => h
    exact ⟨xs, hValues, by rw [hSame, List.map_id]⟩
  · rintro ⟨xs, hValues, rfl⟩
    rw [List.forall₂_map_right_iff]
    exact forall₂_imp_of_mem hValues fun v hv x _ =>
      isEntry_of_conform fun members hObject => hNames members (hObject ▸ hv)

/-- A text lists entries if and only if it begins with a document that is a list of them. -/
theorem listOfText_eq_ok_iff {text : String} {entries : List ExpectedDiagnostic} :
    listOfText text = .ok entries ↔
      ∃ document rest values, text = document ++ rest ∧ Json.IsSingleDocument document ∧
        Json.parse document = .ok (.array values) ∧ List.Forall₂ IsEntry values entries := by
  have hClosed : (Shape.record () : Shape Unit).IsClosed := trivial
  rw [listOfText, except_map_eq_ok_iff]
  simp only [Schema.read_listOf_eq_ok_iff isClosed_of_mem_fields hClosed]
  constructor
  · rintro ⟨_, ⟨document, rest, values, xs, hText, hDocument, hParse, hValues, rfl⟩, rfl⟩
    exact ⟨document, rest, values, hText, hDocument, hParse,
      (forall₂_isEntry_iff fun _ => hDocument.nodup_names hParse).2 ⟨xs, hValues, rfl⟩⟩
  · rintro ⟨document, rest, values, hText, hDocument, hParse, hEntries⟩
    obtain ⟨xs, hValues, rfl⟩ :=
      (forall₂_isEntry_iff fun _ => hDocument.nodup_names hParse).1 hEntries
    exact ⟨.array xs, ⟨document, rest, values, xs, hText, hDocument, hParse, hValues, rfl⟩, rfl⟩

end Fixture.ExpectedDiagnostic

end ValidatorGen
