import Deadwood.Proofs.Extraction
import Deadwood.Proofs.Import
import Deadwood.Proofs.Tree.Defects
import Mathlib.Logic.Relation

/-!
Several nested nodes may stand for one directive. How many do is of no consequence: a further one
around a directive, anywhere in a tree and whatever directive it is labelled as, leaves everything that
is taken from the file as it was.
-/
namespace Deadwood

namespace Node

def wrappedIn (label : String) (n : Node) : Node where
  label := label
  span := n.span
  field := n.field
  children := [n]

/-- One directive of the tree is put into a new one. -/
inductive Wraps : Node → Node → Prop
  | here {n : Node} {label : String} : n.role? = some .directive →
      labelRole? label = some .directive → Wraps n (n.wrappedIn label)
  | inside {n child child' : Node} {before after : List Node} :
      n.children = before ++ child :: after → Wraps child child' →
      Wraps n { n with children := before ++ child' :: after }

/-! What the nodes above see of a node. -/

def literalSpan? (n : Node) : Option Span :=
  n.primaryLiteral?.map span

theorem literalSpan?_eq (n : Node) :
    n.literalSpan? = n.preorder.findSome? fun m => m.leadingLiteral?.map span := by
  rewrite [literalSpan?, primaryLiteral?, traverse_eq_preorder, List.map_findSome?]
  rfl

structure SeenAlike (n n' : Node) : Prop where
  span : n'.span = n.span
  field : n'.field = n.field
  label : ∀ label, labelRole? label ≠ some .directive → (n'.label = label ↔ n.label = label)
  literal : n'.literalSpan? = n.literalSpan?

/-- All that is read of a node on a visit. -/
structure ReadAlike (n n' : Node) : Prop where
  role : n'.role? = n.role?
  span : n'.span = n.span
  name : n'.nameNode?.map Node.span = n.nameNode?.map Node.span
  literal : n'.literalSpan? = n.literalSpan?

theorem label_ne_of_directive {n : Node} (h : labelRole? n.label = some .directive) {label : String}
    (hlabel : labelRole? label ≠ some .directive) : n.label ≠ label :=
  fun heq => hlabel (heq ▸ h)

theorem leadingLiteral?_of_directive {n : Node} (h : labelRole? n.label = some .directive) :
    n.leadingLiteral? = none := by
  have huri : n.label ≠ "uri" := label_ne_of_directive h (by decide)
  have hstring : n.label ≠ "string_literal" := label_ne_of_directive h (by decide)
  simp [leadingLiteral?, huri, hstring]

section Sibling

variable {n child child' : Node} {before after : List Node}

theorem SeenAlike.find?_span (h : SeenAlike child child') {p : Node → Bool}
    (hp : p child' = p child) :
    ((before ++ child' :: after).find? p).map Node.span =
      ((before ++ child :: after).find? p).map Node.span := by
  rw [List.find?_append, List.find?_append, List.find?_cons, List.find?_cons, hp]
  cases before.find? p with
  | some m => rfl
  | none =>
    cases p child with
    | true => exact congrArg some h.span
    | false => rfl

theorem SeenAlike.find?_label (h : SeenAlike child child') {label : String}
    (hlabel : labelRole? label ≠ some .directive) :
    ((before ++ child' :: after).find? (·.label == label)).map Node.span =
      ((before ++ child :: after).find? (·.label == label)).map Node.span := by
  apply h.find?_span
  rw [Bool.eq_iff_iff, beq_iff_eq, beq_iff_eq]
  exact h.label label hlabel

theorem nameNode?_eq_or (n : Node) :
    n.nameNode? = (n.child? "name").or (n.children.find? (·.label == "identifier")) := by
  unfold nameNode?
  cases n.child? "name" <;> rfl

theorem SeenAlike.nameNode?_span (h : SeenAlike child child')
    (hchildren : n.children = before ++ child :: after) :
    ({ n with children := before ++ child' :: after } : Node).nameNode?.map Node.span =
      n.nameNode?.map Node.span := by
  rw [nameNode?_eq_or, nameNode?_eq_or, Option.map_or, Option.map_or, child?, child?, hchildren,
    h.find?_label (by decide), h.find?_span (by rw [h.field])]

theorem SeenAlike.leadingLiteral?_span (h : SeenAlike child child')
    (hchildren : n.children = before ++ child :: after) :
    ({ n with children := before ++ child' :: after } : Node).leadingLiteral?.map Node.span =
      n.leadingLiteral?.map Node.span := by
  unfold leadingLiteral?
  split
  · rw [hchildren, Option.map_some, Option.map_some, ← Option.getD_map Node.span,
      ← Option.getD_map Node.span, h.find?_label (by decide)]
  · split <;> rfl

theorem SeenAlike.literalSpan? (h : SeenAlike child child')
    (hchildren : n.children = before ++ child :: after) :
    ({ n with children := before ++ child' :: after } : Node).literalSpan? = n.literalSpan? := by
  have hchild := h.literal
  rw [literalSpan?_eq, literalSpan?_eq] at hchild ⊢
  rw [preorder_eq, preorder_eq, hchildren, preorderAll_append, preorderAll_append, preorderAll,
    preorderAll, List.findSome?_cons, List.findSome?_cons, h.leadingLiteral?_span hchildren]
  simp only [List.findSome?_append, hchild]

theorem SeenAlike.readAlike (h : SeenAlike child child')
    (hchildren : n.children = before ++ child :: after) :
    ReadAlike n { n with children := before ++ child' :: after } where
  role := by simp [role?, isLeaf, hchildren]
  span := rfl
  name := h.nameNode?_span hchildren
  literal := h.literalSpan? hchildren

end Sibling

theorem literalSpan?_wrappedIn {label : String} (hlabel : labelRole? label = some .directive)
    (n : Node) : (n.wrappedIn label).literalSpan? = n.literalSpan? := by
  have hnone : (n.wrappedIn label).leadingLiteral? = none := leadingLiteral?_of_directive hlabel
  rw [literalSpan?_eq, literalSpan?_eq, preorder_eq, List.findSome?_cons, hnone, wrappedIn,
    preorderAll, preorderAll, List.append_nil, Option.map_none]

theorem Wraps.seenAlike {n n' : Node} (h : Wraps n n') : SeenAlike n n' := by
  induction h with
  | @here n label hrole hlabel =>
    rw [role?_eq_some_iff (by decide)] at hrole
    refine ⟨rfl, rfl, fun other hother => ?_, literalSpan?_wrappedIn hlabel n⟩
    have hnew : (n.wrappedIn label).label ≠ other := label_ne_of_directive hlabel hother
    have hold : n.label ≠ other := label_ne_of_directive hrole hother
    simp only [hnew, hold]
  | inside hchildren _ ih => exact ⟨rfl, rfl, fun _ _ => Iff.rfl, ih.literalSpan? hchildren⟩

/-! What the tables take from a node. -/

theorem directiveUri?_eq_bind (source : Bytes) (n : Node) :
    n.directiveUri? source = n.literalSpan?.bind fun span =>
      (Literal.value? (Literal.decode (Utf8.decodeSkipping
        (source.slice span.start span.stop)))).map (span.start, ·) := by
  unfold directiveUri? literalSpan?
  cases n.primaryLiteral? <;> rfl

theorem declaration?_eq_bind (source : Bytes) (file : Text) (excluded : List Text)
    (kind : Declaration.Kind) (n : Node) :
    n.declaration? source file excluded kind = (n.nameNode?.map span).bind fun span =>
      let name := Utf8.decodeSkipping (source.slice span.start span.stop)
      if name.isEmpty || (kind == .method && excluded.contains name) then none
      else some ⟨kind, name, file, source.lineAt span.start⟩ := by
  unfold declaration?
  cases n.nameNode? <;> rfl

end Node

theorem UriTable.record_record (table : UriTable) (entry : Nat × Text) :
    (table.record entry).record entry = table.record entry := by
  simp [record]

namespace Extractor

variable {source : Bytes} {file : Text} {excluded : List Text}

theorem step_of_readAlike (e : Extractor) (s : e.State) {n n' : Node} (h : Node.ReadAlike n n')
    (parent : Option String) :
    e.step source file excluded s ⟨n', parent⟩ = e.step source file excluded s ⟨n, parent⟩ := by
  have hbytes : n'.bytes source = n.bytes source := by
    unfold Node.bytes
    rw [h.span]
  unfold step
  simp only [h.role]
  cases n.role? with
  | none => rfl
  | some role =>
    cases e with
    | declarations => simp only [visit, Node.declaration?_eq_bind, h.name]
    | census => simp only [visit, Visit.lexeme?, hbytes]
    | imports => simp only [visit, Node.directiveUri?_eq_bind, h.literal]
    | strings => simp only [visit, hbytes]

theorem step_wrappedIn (e : Extractor) (s : e.State) {n : Node} {label : String}
    (hrole : n.role? = some .directive) (hlabel : Node.labelRole? label = some .directive)
    (parent : Option String) :
    e.step source file excluded (e.step source file excluded s ⟨n.wrappedIn label, parent⟩)
      ⟨n, some label⟩ = e.step source file excluded s ⟨n, parent⟩ := by
  have hwrapped : (n.wrappedIn label).role? = some .directive :=
    (Node.role?_eq_some_iff (by decide)).mpr hlabel
  have huri : (n.wrappedIn label).directiveUri? source = n.directiveUri? source := by
    rw [Node.directiveUri?_eq_bind, Node.literalSpan?_wrappedIn hlabel, ← Node.directiveUri?_eq_bind]
  unfold step
  simp only [hwrapped, hrole]
  cases e with
  | imports =>
    simp only [roles, List.mem_singleton, if_true, visit, huri]
    cases n.directiveUri? source with
    | none => rfl
    | some entry => exact UriTable.record_record s entry
  | declarations | census | strings => simp [roles]

end Extractor

/-! The walk, and what is collected on it. -/

namespace Node

variable {source : Bytes} {file : Text} {excluded : List Text} {root root' : Node}

theorem Wraps.foldl_walkFrom (h : Wraps root root') (e : Extractor) (s : e.State)
    (parent : Option String) :
    (walkFrom [⟨root', parent⟩]).foldl (e.step source file excluded) s =
      (walkFrom [⟨root, parent⟩]).foldl (e.step source file excluded) s := by
  induction h generalizing s parent with
  | @here n label hrole hlabel =>
    have hwalk : walkFrom [⟨n.wrappedIn label, parent⟩] =
        ⟨n.wrappedIn label, parent⟩ :: walkFrom [⟨n, some label⟩] := walkFrom_singleton _ _
    rw [hwalk, walkFrom_singleton n, walkFrom_singleton n, List.foldl_cons, List.foldl_cons,
      List.foldl_cons, e.step_wrappedIn s hrole hlabel]
  | @inside n child child' before after hchildren hwraps ih =>
    have hsplit : ∀ c : Node, walkFrom ((before ++ c :: after).map (⟨·, some n.label⟩)) =
        walkFrom (before.map (⟨·, some n.label⟩)) ++ (walkFrom [⟨c, some n.label⟩] ++
          walkFrom (after.map (⟨·, some n.label⟩))) := by
      intro c
      rewrite [List.map_append, List.map_cons, ← walkFrom_append, ← walkFrom_append]
      rfl
    -- the node itself reads as before, and below it only the changed child is walked differently
    rw [walkFrom_singleton, walkFrom_singleton, hchildren, hsplit, hsplit, List.foldl_cons,
      List.foldl_cons, e.step_of_readAlike s (hwraps.seenAlike.readAlike hchildren)]
    simp only [List.foldl_append, ih]

theorem Wraps.analyze (h : Wraps root root') :
    root'.analyze source file excluded = root.analyze source file excluded := by
  have hget : ∀ e : Extractor, e.get (Extractor.collect source file excluded Extractor.all root') =
      e.get (Extractor.collect source file excluded Extractor.all root) := by
    intro e
    have hcount : Extractor.all.count e = 1 := by cases e <;> rfl
    rw [Extractor.get_collect_of_count hcount, Extractor.get_collect_of_count hcount]
    exact h.foldl_walkFrom e _ none
  have hdeclarations := hget .declarations
  have hcensus := hget .census
  have huris := hget .imports
  have hliterals := hget .strings
  simp only [Extractor.get] at hdeclarations hcensus huris hliterals
  simp only [Node.analyze, hdeclarations, hcensus, huris, hliterals]

theorem Wraps.uriTable (h : Wraps root root') : root'.uriTable source = root.uriTable source :=
  calc root'.uriTable source
      = root'.walk.foldl (Extractor.imports.step source [] []) [] :=
        (Extractor.foldl_step_imports root').symm
    _ = root.walk.foldl (Extractor.imports.step source [] []) [] := h.foldl_walkFrom .imports [] none
    _ = root.uriTable source := Extractor.foldl_step_imports root

theorem Wraps.outermostDefects_span (h : Wraps root root') :
    root'.outermostDefects.map span = root.outermostDefects.map span := by
  induction h with
  | here _ _ =>
    rw [outermostDefects_eq, wrappedIn, if_neg (by simp), outermostDefectsAll, outermostDefectsAll,
      List.append_nil]
  | @inside n child child' before after hchildren _ ih =>
    rw [outermostDefects_eq, outermostDefects_eq, hchildren]
    split
    · rfl
    · simp only [outermostDefectsAll_append, outermostDefectsAll, List.map_append, ih]

theorem Wraps.defectLines (h : Wraps root root') :
    root'.defectLines source = root.defectLines source := by
  have hspans := congrArg (List.map fun s : Span => source.lineAt s.start) h.outermostDefects_span
  rw [List.map_map, List.map_map] at hspans
  rw [defectLines_eq, defectLines_eq]
  exact hspans

theorem eq_of_wraps {α : Type} {f : Node → α} (hf : ∀ n n', Wraps n n' → f n' = f n)
    (h : Relation.ReflTransGen Wraps root root') : f root' = f root := by
  induction h with
  | refl => rfl
  | tail _ hstep ih => exact (hf _ _ hstep).trans ih

/-- Wrapping directives in further directives, any number of times, changes nothing that is taken from
the file; its URIs are listed by the offsets of their literals, each offset once. -/
theorem wrapped_directives_change_nothing (source : Bytes) (file : Text) (excluded : List Text)
    (h : Relation.ReflTransGen Wraps root root') :
    root'.analyze source file excluded = root.analyze source file excluded ∧
    root'.uris source = root.uris source ∧
    root'.packages source = root.packages source ∧
    root'.defectLines source = root.defectLines source ∧
    root.uris source = (root.uriTable source).inOrder.map (·.2) ∧
    (root.uriTable source).inOrder.Pairwise (fun a b => a.1 < b.1) ∧
    ∀ offset, offset ∈ (root.uriTable source).inOrder.map (·.1) ↔
      ∃ n ∈ root.preorder, n.role? = some .directive ∧
        ∃ uri, n.directiveUri? source = some (offset, uri) := by
  have huris : root'.uris source = root.uris source := by
    unfold uris
    rw [eq_of_wraps (fun _ _ hstep => hstep.uriTable) h]
  refine ⟨eq_of_wraps (fun _ _ hstep => hstep.analyze) h, huris, ?_,
    eq_of_wraps (fun _ _ hstep => hstep.defectLines) h, rfl, pairwise_uriTable source root,
    fun offset => mem_offsets_uriTable⟩
  rw [packages, packages, huris]

def loneImport : Node where
  label := "import_specification"
  span := ⟨0, 16⟩
  children := [{ label := "string_literal", span := ⟨0, 16⟩ }]

def importFile (directive : Node) : Node where
  label := "program"
  span := ⟨0, 16⟩
  children := [directive]

def importText : Bytes := Utf8.encode "'package:http/h'"

theorem wrapped_directives_change_nothing_twice :
    Relation.ReflTransGen Wraps (importFile loneImport)
      (importFile ((loneImport.wrappedIn "library_import").wrappedIn "import_or_export")) ∧
    (importFile ((loneImport.wrappedIn "library_import").wrappedIn "import_or_export")).packages
      importText = [Text.ofString "http"] := by
  have hfirst : Wraps (importFile loneImport)
      (importFile (loneImport.wrappedIn "library_import")) :=
    @Wraps.inside (importFile loneImport) loneImport _ [] [] rfl (.here rfl rfl)
  have hsecond : Wraps (importFile (loneImport.wrappedIn "library_import"))
      (importFile ((loneImport.wrappedIn "library_import").wrappedIn "import_or_export")) :=
    @Wraps.inside (importFile (loneImport.wrappedIn "library_import"))
      (loneImport.wrappedIn "library_import") _ [] [] rfl (.here rfl rfl)
  have hsteps := (Relation.ReflTransGen.single hfirst).tail hsecond
  refine ⟨hsteps, ?_⟩
  obtain ⟨_, _, hpackages, _⟩ := wrapped_directives_change_nothing importText [] [] hsteps
  rw [hpackages]
  decide +kernel

end Node

end Deadwood
