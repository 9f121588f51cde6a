import ValidatorGen.Proofs.Evaluation

/-!
# The blocks of a generated source

Sources are laid out by counting. A step raises or lowers the depth of the lines to come, and the
depth stops at zero, so nothing in a layout tells blocks that match from blocks of which one is
closed once too often. Here the blocks are found in the text. A line shows by its start whether it
opens a block, closes one, goes on with a conjunction or does none of these, and it is indented by
the depth at which the braces before it leave it.

Main results:

* `Nests.append` — lines that lead from one depth to another can be put together;
* `Plan.emits_steps` — the layout of a plan opens its blocks in order and closes them all;
* `Plan.combinedSource_eq_join` — plans written one after the other do not disturb one another;
* `Plan.source_blocks` — both for the text of the source.
-/

namespace ValidatorGen

open Generation

/-! ## Nested lines -/

/-- Whether a text has no line ends and no braces. It is what is asked of the names in a plan: a
name with a brace in it could open a block that nothing closes. -/
def IsFlat (text : List Char) : Prop :=
  '\x7b' ∉ text ∧ '\x7d' ∉ text ∧ '\n' ∉ text

instance (text : List Char) : Decidable (IsFlat text) :=
  inferInstanceAs (Decidable (_ ∧ _))

/-- Whether a text is a line that is neither a brace nor the continuation of a conjunction. So what
kind of line it is can be told by its first character. -/
def IsPlainLine (text : List Char) : Prop :=
  IsFlat text ∧ text.head?.any (fun c => c ≠ ' ' && c ≠ '&') = true

instance (text : List Char) : Decidable (IsPlainLine text) :=
  inferInstanceAs (Decidable (_ ∧ _))

theorem IsFlat.append {a b : List Char} (ha : IsFlat a) (hb : IsFlat b) : IsFlat (a ++ b) :=
  ⟨List.not_mem_append ha.1 hb.1, List.not_mem_append ha.2.1 hb.2.1,
    List.not_mem_append ha.2.2 hb.2.2⟩

theorem IsPlainLine.append {a b : List Char} (ha : IsPlainLine a) (hb : IsFlat b) :
    IsPlainLine (a ++ b) := by
  obtain ⟨hFlat, hHead⟩ := ha
  refine ⟨hFlat.append hb, ?_⟩
  cases a with
  | nil => simp at hHead
  | cons c a => exact hHead

/-- Lines that lead from one depth of nesting to another, and the headers of the blocks they open,
in order. A brace stands alone on its line, and the one that opens a block follows the header. Each
line is indented by its depth, and one step deeper if it goes on with a conjunction. -/
inductive Nests (indent : Nat) : Nat → List (List Char) → List String → Nat → Prop where
  | done (depth : Nat) : Nests indent depth [] [] depth
  | block {depth after : Nat} {header : String} {lines : List (List Char)} {headers : List String}
      (isPlain : IsPlainLine header.toList)
      (inside : Nests indent (depth + 1) lines headers after) :
      Nests indent depth (Line.chars indent ⟨depth, header⟩ ::
        Line.chars indent ⟨depth, "\x7b"⟩ :: lines) (header :: headers) after
  | closing {depth after : Nat} {lines : List (List Char)} {headers : List String}
      (outside : Nests indent depth lines headers after) :
      Nests indent (depth + 1) (Line.chars indent ⟨depth, "\x7d"⟩ :: lines) headers after
  | plain {depth after : Nat} {text : String} {lines : List (List Char)} {headers : List String}
      (isPlain : IsPlainLine text.toList) (following : Nests indent depth lines headers after) :
      Nests indent depth (Line.chars indent ⟨depth, text⟩ :: lines) headers after
  | continuation {depth after : Nat} {text : String} {lines : List (List Char)}
      {headers : List String} (isFlat : IsFlat text.toList)
      (following : Nests indent depth lines headers after) :
      Nests indent depth (Line.chars indent ⟨depth + 1, "&&" ++ text⟩ :: lines) headers after

/-- Whether a line is the brace that opens a block. Its indentation is left aside. -/
def isOpening (line : List Char) : Bool :=
  line.dropWhile (· = ' ') = ['\x7b']

namespace Nests

variable {indent depth middle after : Nat} {lines others : List (List Char)}
  {headers inner : List String}

theorem append (h : Nests indent depth lines headers middle)
    (hNext : Nests indent middle others inner after) :
    Nests indent depth (lines ++ others) (headers ++ inner) after := by
  -- by induction on the lines that come first, each of which stands as it did
  induction h with
  | done => exact hNext
  | block isPlain _ ih => exact .block isPlain (ih hNext)
  | closing _ ih => exact .closing (ih hNext)
  | plain isPlain _ ih => exact .plain isPlain (ih hNext)
  | continuation isFlat _ ih => exact .continuation isFlat (ih hNext)

/-- No line is ended before its end. -/
theorem newline_notMem (h : Nests indent depth lines headers after) : ∀ l ∈ lines, '\n' ∉ l := by
  have hOpen : '\n' ∉ "\x7b".toList := by decide
  have hClose : '\n' ∉ "\x7d".toList := by decide
  induction h with
  | done => exact fun _ hl => absurd hl List.not_mem_nil
  | block isPlain _ ih =>
    rw [List.forall_mem_cons, List.forall_mem_cons]
    exact ⟨Line.newline_notMem_chars indent isPlain.1.2.2,
      Line.newline_notMem_chars indent hOpen, ih⟩
  | closing _ ih =>
    rw [List.forall_mem_cons]
    exact ⟨Line.newline_notMem_chars indent hClose, ih⟩
  | plain isPlain _ ih =>
    rw [List.forall_mem_cons]
    exact ⟨Line.newline_notMem_chars indent isPlain.1.2.2, ih⟩
  | continuation isFlat _ ih =>
    -- a continuation is flat as a whole, since its mark is
    have hText := (show IsFlat "&&".toList by decide).append isFlat
    rw [← String.toList_append] at hText
    rw [List.forall_mem_cons]
    exact ⟨Line.newline_notMem_chars indent hText.2.2, ih⟩

theorem isOpening_chars (text : String) :
    isOpening (Line.chars indent ⟨depth, text⟩) = isOpening text.toList := by
  rw [isOpening, Line.chars, dropWhile_spaces, isOpening]

theorem isOpening_of_isPlainLine {text : List Char} (h : IsPlainLine text) :
    isOpening text = false := by
  obtain ⟨hFlat, hHead⟩ := h
  cases text with
  | nil => simp at hHead
  | cons c rest =>
    have hNot : c ≠ ' ' ∧ c ≠ '&' := by simpa using hHead
    rw [isOpening, List.dropWhile_cons_of_neg (by simp [hNot.1]), decide_eq_false_iff_not]
    intro hBrace
    exact hFlat.1 (hBrace ▸ List.mem_singleton.2 rfl)

/-- There are as many opening lines as headers. -/
theorem countP_isOpening (h : Nests indent depth lines headers after) :
    lines.countP isOpening = headers.length := by
  induction h with
  | done => rfl
  | block isPlain _ ih =>
    rw [List.countP_cons_of_neg, List.countP_cons_of_pos, ih, List.length_cons]
    · rw [isOpening_chars]
      decide
    · rw [isOpening_chars, isOpening_of_isPlainLine isPlain]
      decide
  | closing _ ih =>
    rw [List.countP_cons_of_neg, ih]
    rw [isOpening_chars]
    decide
  | plain isPlain _ ih =>
    rw [List.countP_cons_of_neg, ih]
    rw [isOpening_chars, isOpening_of_isPlainLine isPlain]
    decide
  | continuation _ _ ih =>
    rw [List.countP_cons_of_neg, ih]
    rw [isOpening_chars, String.toList_append, isOpening]
    simp

end Nests

/-! ## Steps that nest -/

/-- Steps whose lines lead from one depth of nesting to another, where the depth that is counted is
the depth of nesting before and after them. The depth that a layout counts never falls below zero.
Only that both depths agree makes sure that the layout never closes more than is open. -/
structure Emits (indent depth : Nat) (steps : List Step) (headers : List String) (after : Nat) :
    Prop where
  depthAfter_eq : Layout.depthAfter depth steps = after
  nests : Nests indent depth ((Layout.lines depth steps).map (Line.chars indent)) headers after

namespace Emits

variable {indent depth middle after : Nat} {steps others : List Step} {headers inner : List String}

theorem append (h : Emits indent depth steps headers middle)
    (hNext : Emits indent middle others inner after) :
    Emits indent depth (steps ++ others) (headers ++ inner) after := by
  refine ⟨by rw [Layout.depthAfter_append, h.depthAfter_eq, hNext.depthAfter_eq], ?_⟩
  rw [Layout.lines_append, h.depthAfter_eq, List.map_append]
  exact h.nests.append hNext.nests

theorem nil (indent depth : Nat) : Emits indent depth [] [] depth :=
  ⟨rfl, .done depth⟩

theorem line {text : String} (h : IsPlainLine text.toList) :
    Emits indent depth [.line text] [] depth :=
  ⟨rfl, .plain h (.done depth)⟩

theorem block {header : String} (h : IsPlainLine header.toList) :
    Emits indent depth (.line header :: Layout.opening) [header] (depth + 1) :=
  ⟨rfl, .block h (.done (depth + 1))⟩

theorem closing : Emits indent (depth + 1) Layout.closing [] depth :=
  ⟨rfl, .closing (.done depth)⟩

end Emits

/-! ## The parts of a source -/

/-- The header of a level is a line of its own if its name and its type parameters are flat. -/
theorem Level.isPlainLine_header {l : Level} (hName : IsFlat l.name.toList)
    (hParameters : ∀ t ∈ l.typeParameters, IsFlat t.toList) : IsPlainLine l.header.toList := by
  obtain ⟨rest, hHeader, hRest⟩ := l.exists_header_eq
  have hStart : IsPlainLine "public partial ".toList := by decide
  rw [hHeader, String.toList_append]
  refine hStart.append ⟨?_, ?_, ?_⟩
  · exact hRest _ (by decide) (by decide) hName.1 fun t ht => (hParameters t ht).1
  · exact hRest _ (by decide) (by decide) hName.2.1 fun t ht => (hParameters t ht).2.1
  · exact hRest _ (by decide) (by decide) hName.2.2 fun t ht => (hParameters t ht).2.2

theorem Constraint.isFlat_fragment {c : Constraint} (h : IsFlat c.member.toList) :
    IsFlat c.fragment.toList := by
  obtain ⟨hOpen, hClose, hBreak⟩ := h
  exact ⟨notMem_fragment hOpen (by decide) (by decide),
    notMem_fragment hClose (by decide) (by decide),
    notMem_fragment hBreak (by decide) (by decide)⟩

namespace Plan

variable {p : Plan} {indent depth : Nat}

theorem isPlainLine_signature (hCapability : IsFlat p.capability.toList) :
    IsPlainLine p.signature.toList := by
  have hStart : IsPlainLine "bool global::".toList := by decide
  unfold signature
  split
  · simp only [String.toList_append]
    exact (((hStart.append hCapability).append (by decide)).append (by decide)).append (by decide)
  · decide
  · decide

/-- The lines after the first one of a conjunction are all continuations. They are one step deeper
than the line that they continue. -/
theorem nests_furtherSteps {cs : List Constraint} (h : ∀ c ∈ cs, IsFlat c.fragment.toList) :
    Nests indent depth ((Layout.lines (depth + 1) (furtherSteps cs)).map (Line.chars indent)) []
      depth := by
  -- The last continuation ends in a semicolon and the others in nothing; otherwise they are the
  -- same.
  have hLine : ∀ (c : Constraint) (tail : String), IsFlat c.fragment.toList → IsFlat tail.toList →
      ∀ {lines}, Nests indent depth lines [] depth →
        Nests indent depth
          (Line.chars indent ⟨depth + 1, "&& " ++ c.fragment ++ tail⟩ :: lines) [] depth := by
    intro c tail hFragment hTail lines hRest
    have hText : "&& " ++ c.fragment ++ tail = "&&" ++ (" " ++ c.fragment ++ tail) := by
      rw [← String.append_assoc, ← String.append_assoc]
      rfl
    rw [hText]
    refine .continuation ?_ hRest
    simp only [String.toList_append]
    exact ((show IsFlat " ".toList by decide).append hFragment).append hTail
  induction cs with
  | nil => exact .done depth
  | cons c rest ih =>
    have hFragment := h c List.mem_cons_self
    have hRest := ih fun d hd => h d (List.mem_cons_of_mem _ hd)
    cases rest with
    | nil => exact hLine c ";" hFragment (by decide) (.done depth)
    | cons d rest =>
      have hFirst := hLine c "" hFragment (by decide) hRest
      rwa [String.append_empty] at hFirst

/-- The return statement stays at its depth. -/
theorem emits_returnSteps {cs : List Constraint} (h : ∀ c ∈ cs, IsFlat c.fragment.toList) :
    Emits indent depth (returnSteps cs) [] depth := by
  refine ⟨depthAfter_returnSteps depth cs, ?_⟩
  have hStart : IsPlainLine "return ".toList := by decide
  match cs with
  | [] => exact (Emits.line (by decide)).nests
  | [c] =>
    refine (Emits.line ?_).nests
    simp only [String.toList_append]
    exact (hStart.append (h c List.mem_cons_self)).append (by decide)
  | c :: d :: rest =>
    -- The step back after the last line writes nothing.
    have hLines : Layout.lines depth (returnSteps (c :: d :: rest)) =
        ⟨depth, "return " ++ c.fragment⟩ ::
          (Layout.lines (depth + 1) (furtherSteps (d :: rest)) ++ []) := by
      rw [returnSteps, Layout.lines, Layout.lines, Layout.lines_append]
      · rfl
      · exact fun h => List.cons_ne_nil d rest h
    rw [hLines, List.append_nil]
    refine .plain ?_ (nests_furtherSteps fun x hx => h x (List.mem_cons_of_mem c hx))
    rw [String.toList_append]
    exact hStart.append (h c List.mem_cons_self)

/-- The method is one block. Its header is the signature, and what stands in it is the return
statement. -/
theorem emits_methodSteps (hCapability : IsFlat p.capability.toList)
    (hFragments : ∀ c ∈ p.constraints, IsFlat c.fragment.toList) :
    Emits indent depth p.methodSteps [p.signature] depth :=
  ((Emits.block (isPlainLine_signature hCapability)).append (emits_returnSteps hFragments)).append
    .closing

/-- The lines that open the levels. The innermost one, and no other, is given the interface. -/
def typeHeaders (p : Plan) (levels : List Level) : List String :=
  levels.dropLast.map Level.header ++
    levels.getLast?.toList.map fun l => l.header ++ " : global::" ++ p.capability

/-- Each level opens a block in the one before. By induction on the levels: each of them adds one
header and one to the depth, and the last one has the interface in its header. -/
theorem emits_openingSteps (hCapability : IsFlat p.capability.toList) {levels : List Level}
    (h : ∀ l ∈ levels, IsPlainLine l.header.toList) :
    Emits indent depth (p.openingSteps levels) (p.typeHeaders levels) (depth + levels.length) := by
  induction levels generalizing depth with
  | nil => exact .nil indent depth
  | cons l rest ih =>
    have hHeader := h l List.mem_cons_self
    cases rest with
    | nil =>
      refine .block ?_
      simp only [String.toList_append]
      exact (hHeader.append (by decide)).append hCapability
    | cons m rest =>
      -- the header is plain, and the interface stands further in
      have hRest : Emits indent (depth + 1) (p.openingSteps (m :: rest))
          (p.typeHeaders (m :: rest)) (depth + 1 + (m :: rest).length) :=
        ih fun x hx => h x (List.mem_cons_of_mem l hx)
      rw [List.length_cons, Nat.add_comm _ 1, ← Nat.add_assoc]
      exact (Emits.block hHeader).append hRest

/-- Closing as many blocks as there are levels leads back to the depth before them. -/
theorem emits_closings (levels : List Level) :
    Emits indent (depth + levels.length) (levels.flatMap fun _ => Layout.closing) [] depth := by
  induction levels with
  | nil => exact .nil indent depth
  | cons l rest ih => exact Emits.closing.append ih

/-- The headers of all blocks, in order. -/
def headers (p : Plan) : List String :=
  p.inNamespace.toList.map ("namespace " ++ ·) ++ p.typeHeaders p.levels ++ [p.signature]

/-- **The layout of a plan opens its blocks in order and closes them all.** -/
theorem emits_steps (h : ∀ name ∈ p.names, IsFlat name.toList) :
    Emits indent depth p.steps p.headers depth := by
  have hCapability : IsFlat p.capability.toList := h _ (by simp [names])
  have hLevels : ∀ l ∈ p.levels, IsPlainLine l.header.toList := by
    intro l hl
    refine Level.isPlainLine_header (h _ ?_) fun t ht => h _ ?_
    · simp only [names, List.mem_append, List.mem_flatMap]
      exact .inl (.inr ⟨l, hl, List.mem_cons_self⟩)
    · simp only [names, List.mem_append, List.mem_flatMap]
      exact .inl (.inr ⟨l, hl, List.mem_cons_of_mem _ ht⟩)
  have hFragments : ∀ c ∈ p.constraints, IsFlat c.fragment.toList := fun c hc =>
    Constraint.isFlat_fragment
      (h _ (List.mem_append_right _ (List.mem_cons_of_mem _ (List.mem_map_of_mem hc))))
  have hComments : Emits indent depth
      [.line "// <auto-generated/>", .line "// Generated by fast-validate"] [] depth :=
    (Emits.line (by decide)).append (Emits.line (by decide))
  -- the levels and the method, at whatever depth the namespace leaves them
  have hTypes : ∀ d, Emits indent d
      (p.openingSteps p.levels ++ p.methodSteps ++ p.levels.flatMap fun _ => Layout.closing)
      (p.typeHeaders p.levels ++ [p.signature]) d := by
    intro d
    have hOpening : Emits indent d (p.openingSteps p.levels) (p.typeHeaders p.levels)
        (d + p.levels.length) := emits_openingSteps hCapability hLevels
    have hAll := (hOpening.append (emits_methodSteps hCapability hFragments)).append
      (emits_closings p.levels)
    rwa [List.append_nil] at hAll
  unfold steps headers
  cases hNamespace : p.inNamespace with
  | none =>
    have hAll := hComments.append (hTypes depth)
    simpa only [Option.isSome_none, Bool.false_eq_true, if_false, List.append_nil,
      List.append_assoc, Option.toList_none, List.map_nil, List.nil_append] using hAll
  | some name =>
    have hStart : IsPlainLine "namespace ".toList := by decide
    have hHeader : IsPlainLine ("namespace " ++ name).toList := by
      rw [String.toList_append]
      exact hStart.append (h _ (by simp [names, hNamespace]))
    have hAll := hComments.append
      (((Emits.block hHeader).append (hTypes (depth + 1))).append .closing)
    simpa only [Option.isSome_some, if_true, List.append_nil, List.append_assoc,
      Option.toList_some, List.map_cons, List.map_nil, List.nil_append] using hAll

/-- There is one block for the namespace, one for each level, and one for the method. -/
theorem length_headers (p : Plan) :
    p.headers.length = (if p.inNamespace.isSome then 1 else 0) + p.levels.length + 1 := by
  have hTypes : (p.typeHeaders p.levels).length = p.levels.length := by
    rcases List.eq_nil_or_concat p.levels with hNone | ⟨outer, inner, hSome⟩
    · rw [hNone]
      rfl
    · rw [hSome, List.concat_eq_append, typeHeaders, List.dropLast_concat, List.getLast?_concat]
      simp
  rw [headers, List.length_append, List.length_append, hTypes]
  cases p.inNamespace <;> rfl

/-! ## Plans one after the other -/

theorem depthAfter_closings (depth : Nat) (levels : List Level) :
    Layout.depthAfter (depth + levels.length) (levels.flatMap fun _ => Layout.closing) = depth :=
  have hClosings : Emits 0 (depth + levels.length) _ [] depth := emits_closings levels
  hClosings.depthAfter_eq

theorem depthAfter_openingSteps (p : Plan) (depth : Nat) (levels : List Level) :
    Layout.depthAfter depth (p.openingSteps levels) = depth + levels.length := by
  induction levels generalizing depth with
  | nil => rfl
  | cons l rest ih =>
    cases rest with
    | nil => rfl
    | cons m rest =>
      have hRest := ih (depth + 1)
      rw [List.length_cons, Nat.add_comm _ 1, ← Nat.add_assoc]
      exact hRest

/-- **A plan leaves the depth as it finds it**, whatever its names are. This holds of any plan,
since it counts steps and not braces. -/
theorem depthAfter_steps (p : Plan) (depth : Nat) : Layout.depthAfter depth p.steps = depth := by
  -- nothing is lowered below zero, since as many steps were raised before
  have hMethod : ∀ d, Layout.depthAfter d p.methodSteps = d := by
    intro d
    show Layout.depthAfter (d + 1) (returnSteps p.constraints ++ Layout.closing) = d
    rw [Layout.depthAfter_append, depthAfter_returnSteps]
    rfl
  have hTypes : ∀ d, Layout.depthAfter
      (Layout.depthAfter (Layout.depthAfter d (p.openingSteps p.levels)) p.methodSteps)
        (p.levels.flatMap fun _ => Layout.closing) = d := by
    intro d
    rw [depthAfter_openingSteps, hMethod, depthAfter_closings]
  unfold steps
  simp only [Layout.depthAfter_append]
  cases p.inNamespace with
  | none => exact hTypes depth
  | some name => exact congrArg (Layout.depthAfter · Layout.closing) (hTypes (depth + 1))

theorem chars_flatMap_steps (indent depth : Nat) (plans : List Plan) :
    Layout.chars indent depth (plans.flatMap steps) =
      plans.flatMap fun p => Layout.chars indent depth p.steps := by
  induction plans with
  | nil => rfl
  | cons p plans ih =>
    rw [List.flatMap_cons, List.flatMap_cons, Layout.chars_append, depthAfter_steps, ih]

/-- **Plans written one after the other give their sources one after the other.** -/
theorem combinedSource_eq_join (indent : Nat) (plans : List Plan) :
    combinedSource indent plans =
      String.join (plans.map fun p => (Artifact.ofPlan indent p).source) := by
  apply String.toList_injective
  rw [combinedSource, Layout.toList_render, chars_flatMap_steps, String.toList_join,
    List.flatMap_map]
  exact congrArg (List.flatMap · plans) (funext fun p => (Layout.toList_render indent _).symm)

/-! ## The text -/

/--
**Sources are well nested, and they can be joined.** Take any plan whose names have no braces and no
line ends. Its source is a sequence of lines that are indented by their depth of nesting; they start
and end outside all blocks and open one block for the namespace, if there is one, one for each level
and one for the method, under headers of which that of the innermost level, and no other, gives the
type the interface. And take any plans at all: written one after the other by one writer they give
the sources that they give apart.
-/
theorem source_blocks (indent : Nat) :
    (∀ p : Plan, (∀ name ∈ p.names, IsFlat name.toList) → ∃ lines : List (List Char),
      (Artifact.ofPlan indent p).source.toList = lines.flatMap (· ++ ['\n']) ∧
        (∀ l ∈ lines, '\n' ∉ l) ∧ Nests indent 0 lines p.headers 0 ∧
        lines.countP isOpening =
          (if p.inNamespace.isSome then 1 else 0) + p.levels.length + 1) ∧
    ∀ plans : List Plan, combinedSource indent plans =
      String.join (plans.map fun p => (Artifact.ofPlan indent p).source) := by
  refine ⟨fun p h => ?_, combinedSource_eq_join indent⟩
  have hEmits : Emits indent 0 p.steps p.headers 0 := emits_steps h
  have hNests := hEmits.nests
  refine ⟨_, ?_, hNests.newline_notMem, hNests, ?_⟩
  · rw [Artifact.ofPlan, source, Layout.toList_render, Layout.chars, List.flatMap_map]
  · rw [hNests.countP_isOpening, length_headers]

/-- The blocks of a type in another one: their headers, and how many lines open one. -/
theorem source_blocks_crate :
    (∀ name ∈ crate.names, IsFlat name.toList) ∧ ∃ lines : List (List Char),
      (Artifact.ofPlan 4 crate).source.toList = lines.flatMap (· ++ ['\n']) ∧
        Nests 4 0 lines
          ["namespace Depot.Goods", "public partial class Shelf<TKey, TValue>",
            "public partial record struct Crate : global::FastValidate.IFastValidatable",
            "public bool Validate()"] 0 ∧
        lines.countP isOpening = 4 := by
  have hNames : ∀ name ∈ crate.names, IsFlat name.toList := by decide
  obtain ⟨lines, hText, -, hNests, hCount⟩ := (source_blocks 4).1 crate hNames
  exact ⟨hNames, lines, hText, hNests, hCount⟩

end Plan

end ValidatorGen
