import ValidatorGen.Config
import ValidatorGen.Snapshot.Format
import ValidatorGen.Proofs.Completion

/-!
# Complete documents

A value is *complete* for a shape if it has the shape and nothing has to be completed in it: every
record is an object with all its fields in order, and every choice is a name. The documents of
snapshots and of configurations are complete, whatever stands in them. So they are taken as they are
when they are checked against their shape, and what is read from them is what they were written for.

Completeness is a fixed point: the check against the shape gives the value back. It is shown from
the bottom up, with one lemma for each kind of shape, so the documents of the single record types
are put together from the lemmas of their fields. Declarations contain declarations, and theirs is
the only proof by recursion.

Writing and reading are then inverse because the first step of reading changes nothing and the
second one undoes writing field by field.

Main results:

* `Complete.record` — an object with all the fields of a record, each complete, is complete;
* `TypeDeclaration.complete_toJson` — the document of a declaration is complete, at any depth;
* `ofJson_toJson` — reading undoes writing.
-/

namespace ValidatorGen

/-! ## Names that are all different -/

theorem RecordType.field?_of_mem {ρ : Type} {type : RecordType ρ} (hNames : type.names.Nodup)
    {field : Field ρ} (h : field ∈ type.fields) : type.field? field.name = some field := by
  unfold names at hNames
  unfold field?
  generalize type.fields = fields at hNames h ⊢
  induction fields with
  | nil => cases h
  | cons first fields ih =>
    rw [List.map_cons, List.nodup_cons] at hNames
    obtain ⟨hNew, hNames⟩ := hNames
    obtain rfl | hMem := List.mem_cons.1 h
    · exact List.find?_cons_of_pos (decide_eq_true rfl)
    · -- the first field has another name than this one
      have hNe : first.name ≠ field.name := fun hSame => hNew (hSame ▸ List.mem_map_of_mem hMem)
      rw [List.find?_cons_of_neg (by simpa using hNe)]
      exact ih hNames hMem

theorem Json.lookup?_of_mem {members : List (String × Json)} (hNames : (members.map Prod.fst).Nodup)
    {m : String × Json} (h : m ∈ members) : lookup? m.1 members = some m.2 := by
  induction members with
  | nil => cases h
  | cons first members ih =>
    rw [List.map_cons, List.nodup_cons] at hNames
    obtain ⟨hNew, hNames⟩ := hNames
    obtain rfl | hMem := List.mem_cons.1 h
    · exact if_pos rfl
    · have hNe : first.1 ≠ m.1 := fun hSame => hNew (hSame ▸ List.mem_map_of_mem hMem)
      rw [lookup?, if_neg hNe]
      exact ih hNames hMem

namespace Schema

variable {ρ : Type} {schema : Schema ρ}

/-- Whether a value has a shape and is complete as it stands. It says at once that the value is
accepted and that nothing is put in. -/
def Complete (schema : Schema ρ) (shape : Shape ρ) (value : Json) : Prop :=
  conform schema shape value = .ok value

namespace Complete

/-! ## Values without fields -/

theorem anything (value : Json) : Complete schema .anything value := by
  cases value <;> rfl

theorem text (s : String) : Complete schema .text (.string s) := rfl

theorem optionalText (s : Option String) : Complete schema .optionalText (.ofOptionalText s) := by
  cases s <;> rfl

theorem flag (b : Bool) : Complete schema .flag (.bool b) := rfl

theorem members (ms : List (String × Json)) : Complete schema .members (.object ms) := rfl

theorem oneOf {names : List String} {name : String} (h : name ∈ names) :
    Complete schema (.oneOf names) (.string name) := by
  have hName : (Shape.oneOf names).ofScalar schema (.string name) = .ok (.string name) := if_pos h
  simp only [Complete, conform, hName]
  rfl

theorem natural (type : String) {bound : Nat} {value : Int}
    (inRange : -0x8000000000000000 ≤ value ∧ value < 0x10000000000000000)
    (h : 0 ≤ value ∧ value < bound) :
    Complete schema (.natural type bound) (.number (.integer value inRange)) := by
  have hNumber : (Shape.natural type bound).ofScalar schema (.number (.integer value inRange)) =
      .ok (.number (.integer value inRange)) := if_pos h
  simp only [Complete, conform, hNumber]
  rfl

/-! ## Lists -/

theorem listOf {shape : Shape ρ} {items : List Json}
    (h : ∀ item ∈ items, Complete schema shape item) :
    Complete schema (.listOf shape) (.array items) := by
  have hItems : conformItems schema shape 0 items = .ok items :=
    conformItems_eq_ok_iff.2 (List.forall₂_same.2 h)
  simp only [Complete, conform, hItems]
  rfl

theorem texts (ss : List String) : Complete schema (.listOf .text) (.ofTexts ss) := by
  refine listOf fun item hItem => ?_
  obtain ⟨s, -, rfl⟩ := List.mem_map.1 hItem
  exact text s

/-! ## Records -/

/-- A member with the name of a field and a value that is complete for it. A record is complete if
its members are so, in the order of the fields. -/
def OfField (schema : Schema ρ) (field : Field ρ) (member : String × Json) : Prop :=
  member.1 = field.name ∧ Complete schema field.shape member.2

variable {fields : List (Field ρ)} {ms : List (String × Json)}

theorem map_fst_eq (h : List.Forall₂ (OfField schema) fields ms) :
    ms.map Prod.fst = fields.map Field.name :=
  (map_eq_map_of_forall₂ h fun _ _ hMember => hMember.1.symm).symm

/-- No field takes its default where all of them have been read. -/
theorem fill_eq {read : List (String × Json)} (h : List.Forall₂
      (fun field m => m.1 = field.name ∧ Json.lookup? field.name read = some m.2) fields ms)
    (index : Nat) : RecordType.fill read index fields = .ok ms := by
  induction h generalizing index with
  | nil => rfl
  | @cons field m fields ms hMember _ ih =>
    obtain ⟨name, value⟩ := m
    obtain ⟨rfl, hValue⟩ := hMember
    rw [RecordType.fill, hValue]
    show (RecordType.fill read (index + 1) fields).map ((field.name, value) :: ·) = _
    rw [ih]
    rfl

/-- **An object with all the fields of a record, each complete, is complete.** -/
theorem record {type : ρ} (hNames : (schema type).names.Nodup)
    (h : List.Forall₂ (OfField schema) (schema type).fields ms) :
    Complete schema (.record type) (.object ms) := by
  -- each member is read for the field of its name, and as it is
  have hMembers : conformMembers schema (schema type) ms = .ok ms := by
    refine conformMembers_eq_ok_iff.2 (List.forall₂_same.2 fun m hm => ⟨rfl, ?_⟩)
    obtain ⟨field, hField, hName, hValue⟩ := exists_related_of_mem h.flip hm
    exact ⟨field, hName ▸ RecordType.field?_of_mem hNames hField, hValue⟩
  -- and each field has been read
  have hFill : RecordType.fill ms 0 (schema type).fields = .ok ms := by
    refine fill_eq (forall₂_imp_of_mem h fun field hField m hm hMember => ⟨hMember.1, ?_⟩) 0
    have hKeys : (ms.map Prod.fst).Nodup := map_fst_eq h ▸ hNames
    exact hMember.1 ▸ Json.lookup?_of_mem hKeys hm
  simp only [Complete, conform, hMembers, RecordType.ofMembers, hFill]
  rfl

end Complete

end Schema

/-! ## Documents of snapshots -/

namespace Snapshot

open Schema (Complete)

/-- No record type has two fields of one name. -/
theorem nodup_names (part : Part) : (schema part).names.Nodup := by
  cases part <;> decide

end Snapshot

section Parts

open Schema (Complete)
open Snapshot (nodup_names)

theorem MemberKind.label_mem (k : MemberKind) : k.label ∈ MemberKind.all.map MemberKind.label := by
  cases k <;> decide

theorem TypeKind.label_mem (k : TypeKind) : k.label ∈ TypeKind.all.map TypeKind.label := by
  cases k <;> decide

theorem Span.complete_toJson (s : Span) :
    Complete Snapshot.schema (.record .span) s.toJson := by
  have hNumber : ∀ n : UInt32, Complete Snapshot.schema Snapshot.spanShape (.ofUInt32 n) :=
    fun n => .natural "u32" _ ⟨by omega, by exact_mod_cast n.toNat_lt⟩
  exact .record (nodup_names _) <|
    .cons ⟨rfl, hNumber s.line⟩ <|
    .cons ⟨rfl, hNumber s.column⟩ .nil

theorem Argument.complete_toJson (a : Argument) :
    Complete Snapshot.schema (.record .argument) a.toJson :=
  .record (nodup_names _) <|
    .cons ⟨rfl, .text a.kind⟩ <|
    .cons ⟨rfl, .anything a.value⟩ .nil

theorem Attribute.complete_toJson (a : Attribute) :
    Complete Snapshot.schema (.record .attribute) a.toJson :=
  .record (nodup_names _) <|
    .cons ⟨rfl, .text a.name⟩ <|
    .cons ⟨rfl, .listOf (List.forall_mem_map.2 fun x _ => x.complete_toJson)⟩ <|
    .cons ⟨rfl, .members a.namedArguments⟩ .nil

theorem Parameter.complete_toJson (p : Parameter) :
    Complete Snapshot.schema (.record .parameter) p.toJson :=
  .record (nodup_names _) <|
    .cons ⟨rfl, .text p.name⟩ <|
    .cons ⟨rfl, .text p.type⟩ .nil

theorem Member.complete_toJson (m : Member) :
    Complete Snapshot.schema (.record .member) m.toJson :=
  .record (nodup_names _) <|
    .cons ⟨rfl, .oneOf m.kind.label_mem⟩ <|
    .cons ⟨rfl, .text m.name⟩ <|
    .cons ⟨rfl, .optionalText m.type⟩ <|
    .cons ⟨rfl, .texts m.modifiers⟩ <|
    .cons ⟨rfl, .listOf (List.forall_mem_map.2 fun x _ => x.complete_toJson)⟩ <|
    .cons ⟨rfl, .listOf (List.forall_mem_map.2 fun x _ => x.complete_toJson)⟩ <|
    .cons ⟨rfl, .flag m.hasBody⟩ <|
    .cons ⟨rfl, m.span.complete_toJson⟩ .nil

mutual

/-- **The document of a declaration is complete**, at any depth. -/
theorem TypeDeclaration.complete_toJson :
    ∀ d : TypeDeclaration, Complete Snapshot.schema (.record .typeDeclaration) d.toJson
  | ⟨head, nested⟩ => by
    rw [TypeDeclaration.toJson]
    -- one line for each field, in the order of the schema
    exact .record (nodup_names _) <|
      .cons ⟨rfl, .oneOf head.kind.label_mem⟩ <|
      .cons ⟨rfl, .text head.name⟩ <|
      .cons ⟨rfl, .optionalText head.inNamespace⟩ <|
      .cons ⟨rfl, .texts head.modifiers⟩ <|
      .cons ⟨rfl, .texts head.typeParameters⟩ <|
      .cons ⟨rfl, .listOf (List.forall_mem_map.2 fun x _ => x.complete_toJson)⟩ <|
      .cons ⟨rfl, .texts head.baseList⟩ <|
      .cons ⟨rfl, .listOf (List.forall_mem_map.2 fun x _ => x.complete_toJson)⟩ <|
      .cons ⟨rfl, .listOf (TypeDeclaration.complete_listToJson nested)⟩ <|
      .cons ⟨rfl, .text head.symbol⟩ <|
      .cons ⟨rfl, head.span.complete_toJson⟩ .nil

theorem TypeDeclaration.complete_listToJson :
    ∀ ds : List TypeDeclaration, ∀ item ∈ TypeDeclaration.listToJson ds,
      Complete Snapshot.schema (.record .typeDeclaration) item
  | [], _, hItem => by
    rw [TypeDeclaration.listToJson] at hItem
    cases hItem
  | d :: ds, item, hItem => by
    rw [TypeDeclaration.listToJson, List.mem_cons] at hItem
    obtain rfl | hItem := hItem
    · exact TypeDeclaration.complete_toJson d
    · exact TypeDeclaration.complete_listToJson ds item hItem

end

theorem SourceFile.complete_toJson (f : SourceFile) :
    Complete Snapshot.schema (.record .sourceFile) f.toJson :=
  .record (nodup_names _) <|
    .cons ⟨rfl, .text f.path⟩ <|
    .cons ⟨rfl, .listOf (TypeDeclaration.complete_listToJson f.types)⟩ .nil

theorem Compilation.complete_toJson (c : Compilation) :
    Complete Snapshot.schema (.record .compilation) c.toJson :=
  .record (nodup_names _) <|
    .cons ⟨rfl, .listOf (List.forall_mem_map.2 fun f _ => f.complete_toJson)⟩ .nil

/-! ## Documents of configurations -/

theorem Config.complete_toJson (c : Config) :
    Complete Config.schema (.record .config) c.toJson := by
  have hIndent :
      Complete Config.schema (.natural "usize" 0x10000000000000000) (.ofUInt64 c.indent) :=
    .natural "usize" _ ⟨by omega, by exact_mod_cast c.indent.toNat_lt⟩
  refine .record (by decide) <| .cons ⟨rfl, ?_⟩ <| .cons ⟨rfl, .flag c.reportDropped⟩ <|
    .cons ⟨rfl, hIndent⟩ .nil
  exact .record (by decide) <|
    .cons ⟨rfl, .text c.symbols.marker⟩ <|
    .cons ⟨rfl, .text c.symbols.capability⟩ <|
    .cons ⟨rfl, .text c.symbols.greaterThan⟩ <|
    .cons ⟨rfl, .text c.symbols.lessThan⟩ <|
    .cons ⟨rfl, .text c.symbols.between⟩ .nil

end Parts

/-- **Reading undoes writing**: the document of a snapshot is read as that snapshot, and the
document of a configuration as that configuration. -/
theorem ofJson_toJson :
    (∀ c : Compilation, Compilation.ofJson c.toJson = .ok c) ∧
      ∀ config : Config, Config.ofJson config.toJson = .ok config := by
  constructor
  · intro c
    rw [Compilation.ofJson, show Schema.conform _ _ c.toJson = .ok c.toJson from c.complete_toJson]
    exact congrArg Except.ok c.ofDocument_toJson
  · intro config
    rw [Config.ofJson,
      show Schema.conform _ _ config.toJson = .ok config.toJson from config.complete_toJson]
    exact congrArg Except.ok config.ofDocument_toJson

end ValidatorGen
