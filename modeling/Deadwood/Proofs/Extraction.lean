import Deadwood.Analysis
import Deadwood.Proofs.Declarations
import Mathlib.Data.List.Induction

/-!
The one walk taken apart. An extractor changes nothing but its own state, so what it collects depends
on how often it was registered and on no other extractor; registered once, it collects what a walk of
its own would give.
-/
namespace Deadwood

namespace Walker

variable {σ : Type}

theorem dispatch_on (w : Walker σ) (role : Node.Role) (callback : σ → Visit → σ) (state : σ)
    (v : Visit) :
    (w.on role callback).dispatch state v =
      if v.node.role? = some role then callback (w.dispatch state v) v else w.dispatch state v := by
  unfold dispatch
  cases v.node.role? with
  | none => simp
  | some r =>
    by_cases h : role = r
    · simp [on, callbacksOf, h]
    · simp [on, callbacksOf, h, Ne.symm h]

end Walker

namespace Extractor

variable {source : Bytes} {file : Text} {excluded : List Text}

@[simp] theorem get_set_self (c : Collected) (e : Extractor) (s : e.State) :
    e.get (e.set c s) = s := by
  cases e <;> rfl

@[simp] theorem set_get_self (c : Collected) (e : Extractor) : e.set c (e.get c) = c := by
  cases e <;> rfl

theorem get_set_of_ne (c : Collected) {e f : Extractor} (h : f ≠ e) (s : f.State) :
    e.get (f.set c s) = e.get c := by
  cases e <;> cases f <;> simp_all [get, set]

def step (source : Bytes) (file : Text) (excluded : List Text) (e : Extractor) (s : e.State)
    (v : Visit) : e.State :=
  match v.node.role? with
  | none => s
  | some role => if role ∈ e.roles then e.visit source file excluded role s v else s

theorem dispatch_register (w : Walker Collected) (e : Extractor) (c : Collected) (v : Visit) :
    (e.register source file excluded w).dispatch c v =
      e.set (w.dispatch c v) (e.step source file excluded (e.get (w.dispatch c v)) v) := by
  unfold step
  cases hrole : v.node.role? with
  | none => cases e <;> simp [register, roles, Walker.dispatch_on, hrole]
  | some role => cases e <;> cases role <;> simp [register, roles, Walker.dispatch_on, hrole]

theorem get_dispatch (es : List Extractor) (e : Extractor) (c : Collected) (v : Visit) :
    e.get ((es.foldl (register source file excluded) {}).dispatch c v) =
      Nat.repeat (fun s => e.step source file excluded s v) (es.count e) (e.get c) := by
  induction es using List.reverseRecOn with
  | nil =>
    have hidle : ({} : Walker Collected).dispatch c v = c := by
      unfold Walker.dispatch
      cases v.node.role? <;> rfl
    exact congrArg e.get hidle
  | append_singleton es f ih =>
    rw [List.foldl_concat, dispatch_register, List.count_append]
    by_cases h : f = e
    · subst h
      rw [get_set_self, ih, List.count_singleton_self]
      rfl
    · rw [get_set_of_ne _ h, ih, List.count_singleton, beq_false_of_ne h]
      rfl

theorem get_collect (es : List Extractor) (e : Extractor) (root : Node) :
    e.get (collect source file excluded es root) =
      root.walk.foldl (fun s v =>
        Nat.repeat (fun s => e.step source file excluded s v) (es.count e) s) (e.get {}) := by
  symm
  apply List.foldl_hom (fun c => e.get c)
  exact fun c v => (get_dispatch es e c v).symm

theorem get_collect_of_count {es : List Extractor} {e : Extractor} (h : es.count e = 1)
    (root : Node) :
    e.get (collect source file excluded es root) =
      root.walk.foldl (e.step source file excluded) (e.get {}) := by
  rw [get_collect, h]
  rfl

theorem step_declarations (found : List Declaration) (v : Visit) :
    declarations.step source file excluded found v =
      found ++ (v.node.recorded? source file excluded).toList := by
  unfold step Node.recorded?
  cases v.node.role? with
  | none => simp
  | some role => cases role <;> simp [roles, visit, Node.Role.declares?]

theorem foldl_step_declarations (root : Node) :
    root.walk.foldl (declarations.step source file excluded) [] =
      root.declarations source file excluded := by
  have hnodes : root.walk.map Visit.node = root.preorder := root.traverse_eq_preorder
  rw [Node.declarations_eq_filterMap_preorder, ← hnodes, List.filterMap_map,
    List.filterMap_eq_flatMap_toList, List.flatMap_eq_foldl]
  congr 1
  funext found v
  exact step_declarations found v

theorem foldl_step_eq_foldl_withRole {e : Extractor} {role : Node.Role} (h : e.roles = [role])
    (root : Node) (s : e.State) :
    root.walk.foldl (e.step source file excluded) s =
      (root.withRole role).foldl (e.visit source file excluded role) s := by
  rw [Node.withRole_eq_filter, List.foldl_filter]
  congr 1
  funext s v
  unfold step
  cases v.node.role? with
  | none => simp
  | some r =>
    by_cases hr : r = role
    · simp [h, hr]
    · simp [h, hr]

theorem foldl_step_census (root : Node) :
    root.walk.foldl (census.step source file excluded) {} = root.census source := by
  rw [foldl_step_eq_foldl_withRole rfl]
  unfold Node.census Census.ofLexemes
  rw [List.foldl_filterMap]
  congr 1
  funext counts v
  cases h : v.lexeme? source <;> simp [visit, h]

theorem foldl_step_imports (root : Node) :
    root.walk.foldl (imports.step source file excluded) [] = root.uriTable source := by
  rw [foldl_step_eq_foldl_withRole rfl]
  unfold Node.uriTable
  rw [List.foldl_filterMap]
  congr 1
  funext table v
  cases h : v.node.directiveUri? source <;> simp [visit, h]

theorem foldl_step_strings (root : Node) :
    root.walk.foldl (strings.step source file excluded) [] = root.literalFragments source := by
  rw [foldl_step_eq_foldl_withRole rfl]
  rfl

end Extractor

/-- The single walk gives what four separate ones would. -/
theorem Node.analyze_eq (source : Bytes) (file : Text) (excluded : List Text) (root : Node) :
    root.analyze source file excluded =
      { file
        declarations := root.declarations source file excluded
        census := root.census source
        packages := Text.addAll [] (root.packages source)
        literals := root.literalFragments source } := by
  have hall : ∀ e : Extractor, e.get (Extractor.collect source file excluded Extractor.all root) =
      root.walk.foldl (e.step source file excluded) (e.get {}) := by
    intro e
    apply Extractor.get_collect_of_count
    cases e <;> rfl
  have hdeclarations := (hall .declarations).trans (Extractor.foldl_step_declarations root)
  have hcensus := (hall .census).trans (Extractor.foldl_step_census root)
  have huris := (hall .imports).trans (Extractor.foldl_step_imports root)
  have hliterals := (hall .strings).trans (Extractor.foldl_step_strings root)
  simp only [Extractor.get] at hdeclarations hcensus huris hliterals
  simp only [analyze, hdeclarations, hcensus, huris, hliterals]
  rfl

end Deadwood
