import Deadwood.FileTree
import Deadwood.Proofs.Path.Normal
import Mathlib.Data.List.Nodup
import Mathlib.Data.List.Perm.Basic

/-!
What a file tree holds, apart from the order in which its directories list their entries. Nothing that
is looked up by a path depends on that order.
-/
namespace Deadwood.FileTree

/-! ### Entries -/

/-- Names lead from a directory to something in it or below, not through links. -/
inductive Holds : FileTree → List Text → FileTree → Prop
  | self (t : FileTree) : Holds t [] t
  | entry {entries : List (Text × FileTree)} {name : Text} {entry found : FileTree}
      {names : List Text} : (name, entry) ∈ entries → Holds entry names found →
      Holds (dir entries) (name :: names) found

section Entries

variable {entries entries' : List (Text × FileTree)} {name : Text} {entry : FileTree}

theorem lookup_eq_some_iff_mem (h : (entries.map (·.1)).Nodup) :
    entries.lookup name = some entry ↔ (name, entry) ∈ entries := by
  induction entries with
  | nil => simp
  | cons first entries ih =>
    obtain ⟨known, found⟩ := first
    rw [List.map_cons, List.nodup_cons] at h
    by_cases hname : name = known
    · subst hname
      have hlater : (name, entry) ∉ entries := fun hmem =>
        h.1 (List.mem_map.mpr ⟨_, hmem, rfl⟩)
      simp [hlater, eq_comm]
    · have hbeq : (name == known) = false := beq_false_of_ne hname
      rw [List.lookup_cons, hbeq, List.mem_cons, Prod.mk.injEq, ih h.2]
      simp [hname]

theorem lookup_perm (hperm : entries.Perm entries') (h : (entries.map (·.1)).Nodup) (name : Text) :
    entries.lookup name = entries'.lookup name := by
  have h' : (entries'.map (·.1)).Nodup := (hperm.map _).nodup_iff.mp h
  ext entry
  rw [lookup_eq_some_iff_mem h, lookup_eq_some_iff_mem h', hperm.mem_iff]

end Entries

section At

variable {t found : FileTree} {name : Text} {names more : List Text}

theorem at?_append (t : FileTree) (names more : List Text) :
    t.at? (names ++ more) = (t.at? names).bind (·.at? more) := by
  induction names generalizing t with
  | nil => rfl
  | cons name names ih =>
    rw [List.cons_append, at?, at?, Option.bind_assoc]
    simp only [ih]

theorem mem_entries_iff {entries : List (Text × FileTree)} (h : (dir entries).WellFormed) :
    (name, found) ∈ entries ↔ (dir entries).at? [name] = some found := by
  cases h with
  | dir hnodup _ _ =>
    rw [← lookup_eq_some_iff_mem hnodup, at?, FileTree.entries]
    cases entries.lookup name <;> rfl

theorem holds_iff_at? (ht : t.WellFormed) : Holds t names found ↔ t.at? names = some found := by
  constructor
  · intro h
    induction h with
    | self => rfl
    | entry hmem _ ih =>
      cases ht with
      | dir hnodup _ hentries =>
        rw [at?, entries, (lookup_eq_some_iff_mem hnodup).mpr hmem, Option.bind_some]
        exact ih (hentries _ hmem)
  · intro h
    induction names generalizing t with
    | nil =>
      cases h
      exact .self _
    | cons name names ih =>
      rw [at?, Option.bind_eq_some_iff] at h
      obtain ⟨entry, hlookup, hentry⟩ := h
      cases ht with
      | file => cases hlookup
      | link => cases hlookup
      | dir hnodup _ hentries =>
        have hmem := (lookup_eq_some_iff_mem hnodup).mp hlookup
        exact .entry hmem (ih (hentries _ hmem) hentry)

theorem WellFormed.of_holds (ht : t.WellFormed) (h : Holds t names found) :
    found.WellFormed ∧ ∀ name ∈ names, Path.IsName name := by
  induction h with
  | self => exact ⟨ht, fun _ hname => absurd hname List.not_mem_nil⟩
  | entry hmem _ ih =>
    cases ht with
    | dir _ hnames hentries =>
      obtain ⟨hfound, hbelow⟩ := ih (hentries _ hmem)
      exact ⟨hfound, List.forall_mem_cons.mpr ⟨hnames _ hmem, hbelow⟩⟩

end At

/-! ### Paths -/

section Find

variable {t found : FileTree} {path path' : Text}

theorem isSound_iff : isSound path ↔ ∀ name ∈ Path.components path, isSound name := by
  unfold isSound
  simp only [List.all_eq_true]
  constructor
  · exact fun h name hname c hc => h c (Path.mem_of_mem_components hname hc)
  · intro h c hc
    rcases Path.mem_components_of_mem hc with rfl | rfl | ⟨name, hname, hc⟩
    · decide
    · decide
    · exact h name hname c hc

theorem place?_congr (h : Path.components path = Path.components path') (last : Last) :
    t.place? last path = t.place? last path' := by
  have hsound : isSound path = isSound path' := by
    rw [Bool.eq_iff_iff, isSound_iff, isSound_iff, h]
  unfold place?
  rw [hsound, h]

theorem find?_congr (h : Path.components path = Path.components path') :
    t.find? path = t.find? path' := by
  unfold find?
  rw [place?_congr h]

theorem hasDir_iff : t.hasDir path ↔ ∃ entries, t.find? path = some (dir entries) := by
  unfold hasDir
  rcases t.find? path with _ | _ | _ | _ <;> simp [isDir]

theorem hasFile_iff : t.hasFile path ↔ ∃ content, t.find? path = some (file content) := by
  unfold hasFile
  rcases t.find? path with _ | _ | _ | _ <;> simp [isRegular]

theorem WellFormed.find? (ht : t.WellFormed) (h : t.find? path = some found) : found.WellFormed := by
  obtain ⟨names, _, hat⟩ := Option.bind_eq_some_iff.mp h
  exact (ht.of_holds ((holds_iff_at? ht).mpr hat)).1

end Find

/-! ### Reordering -/

/-- The same files, links and directories, listed in another order by any directories. -/
inductive Reordered : FileTree → FileTree → Prop
  | refl (t : FileTree) : Reordered t t
  | shuffle {entries entries' : List (Text × FileTree)} : entries.Perm entries' →
      Reordered (dir entries) (dir entries')
  | inside {before after : List (Text × FileTree)} {name : Text} {t t' : FileTree} :
      Reordered t t' →
      Reordered (dir (before ++ (name, t) :: after)) (dir (before ++ (name, t') :: after))
  | trans {t t' t'' : FileTree} : Reordered t t' → Reordered t' t'' → Reordered t t''

/-- What is seen of an entry without opening it. -/
def shell : FileTree → FileTree
  | dir _ => dir []
  | t => t

/-- The two trees have the same things at the same places. -/
def SameContents (t t' : FileTree) : Prop :=
  ∀ names, (t.at? names).map shell = (t'.at? names).map shell

theorem sameContents_dir_iff {entries entries' : List (Text × FileTree)} :
    SameContents (dir entries) (dir entries') ↔
      ∀ name names, ((entries.lookup name).bind (·.at? names)).map shell =
        ((entries'.lookup name).bind (·.at? names)).map shell := by
  constructor
  · exact fun h name names => h (name :: names)
  · intro h names
    cases names with
    | nil => rfl
    | cons name names => exact h name names

theorem Reordered.sameContents {t t' : FileTree} (h : Reordered t t') (ht : t.WellFormed) :
    t'.WellFormed ∧ SameContents t t' := by
  induction h with
  | refl => exact ⟨ht, fun _ => rfl⟩
  | @shuffle entries entries' hperm =>
    cases ht with
    | dir hnodup hnames hentries =>
      refine ⟨.dir ((hperm.map _).nodup_iff.mp hnodup)
        (fun entry hentry => hnames entry (hperm.mem_iff.mpr hentry))
        fun entry hentry => hentries entry (hperm.mem_iff.mpr hentry), ?_⟩
      rw [sameContents_dir_iff]
      intro name names
      rw [lookup_perm hperm hnodup]
  | @inside before after name t t' _ ih =>
    cases ht with
    | dir hnodup hnames hentries =>
      obtain ⟨ht', hsame⟩ := ih (hentries (name, t) (by simp))
      refine ⟨.dir ?_ ?_ ?_, ?_⟩
      · simpa using hnodup
      · simp only [List.mem_append, List.mem_cons] at hnames ⊢
        rintro entry (hentry | rfl | hentry)
        · exact hnames entry (.inl hentry)
        · exact hnames (name, t) (.inr (.inl rfl))
        · exact hnames entry (.inr (.inr hentry))
      · simp only [List.mem_append, List.mem_cons] at hentries ⊢
        rintro entry (hentry | rfl | hentry)
        · exact hentries entry (.inl hentry)
        · exact ht'
        · exact hentries entry (.inr (.inr hentry))
      · rw [sameContents_dir_iff]
        intro other names
        rw [List.lookup_append, List.lookup_append]
        cases before.lookup other with
        | some entry => rfl
        | none =>
          rw [Option.none_or, Option.none_or, List.lookup_cons, List.lookup_cons]
          cases other == name with
          | true => exact hsame names
          | false => rfl
  | trans _ _ ih ih' =>
    obtain ⟨ht', hsame⟩ := ih ht
    obtain ⟨ht'', hsame'⟩ := ih' ht'
    exact ⟨ht'', fun names => (hsame names).trans (hsame' names)⟩

theorem locate?_nil (t : FileTree) (last : Last) (links : Nat) (place : List Text) :
    t.locate? last links place [] = some place := by
  cases links <;> rfl

theorem locate?_cons (t : FileTree) (last : Last) (links : Nat) (place : List Text) (name : Text)
    (rest : List Text) :
    t.locate? last links place (name :: rest) =
      if name == Path.above then
        if (t.at? place.reverse).any isDir then t.locate? last links (place.drop 1) rest else none
      else
        match t.at? (name :: place).reverse with
        | some (.link target) =>
          if rest.isEmpty && last == .keep then some (name :: place)
          else
            match links with
            | 0 => none
            | links + 1 =>
              let start := if Path.isAbsolute target then [] else place
              t.locate? last links start (Path.components target ++ rest)
        | some _ => t.locate? last links (name :: place) rest
        | none => if last == .create then t.locate? last links (name :: place) rest else none := by
  cases links <;> rfl

/-- One step of a look-up sees no more of the tree than the shell of one entry. -/
theorem locate?_cons_shell (t : FileTree) (last : Last) (links : Nat) (place : List Text)
    (name : Text) (rest : List Text) :
    t.locate? last links place (name :: rest) =
      if name == Path.above then
        if ((t.at? place.reverse).map shell).any isDir then
          t.locate? last links (place.drop 1) rest
        else none
      else
        match (t.at? (name :: place).reverse).map shell with
        | some (.link target) =>
          if rest.isEmpty && last == .keep then some (name :: place)
          else
            match links with
            | 0 => none
            | links + 1 =>
              let start := if Path.isAbsolute target then [] else place
              t.locate? last links start (Path.components target ++ rest)
        | some _ => t.locate? last links (name :: place) rest
        | none => if last == .create then t.locate? last links (name :: place) rest else none := by
  rw [locate?_cons]
  have hdir : ((t.at? place.reverse).map shell).any isDir = (t.at? place.reverse).any isDir := by
    cases t.at? place.reverse with
    | none => rfl
    | some found => cases found <;> rfl
  rw [hdir]
  cases t.at? (name :: place).reverse with
  | none => rfl
  | some found => cases found <;> rfl

section SameContents

variable {t t' : FileTree} (h : SameContents t t')

include h

theorem SameContents.at? {names : List Text} {found : FileTree} (hfound : t.at? names = some found) :
    ∃ found', t'.at? names = some found' ∧ SameContents found found' := by
  have hnames := h names
  rw [hfound, Option.map_some] at hnames
  obtain ⟨found', hfound', _⟩ := Option.map_eq_some_iff.mp hnames.symm
  refine ⟨found', hfound', fun more => ?_⟩
  have hmore := h (names ++ more)
  rwa [at?_append, at?_append, hfound, hfound', Option.bind_some, Option.bind_some] at hmore

theorem SameContents.at?_file {names : List Text} {content : Bytes}
    (hfile : t.at? names = some (file content)) : t'.at? names = some (file content) := by
  have hnames := h names
  rw [hfile, Option.map_some] at hnames
  obtain ⟨found, hfound, hshell⟩ := Option.map_eq_some_iff.mp hnames.symm
  cases found with
  | file content' =>
    cases hshell
    exact hfound
  | link target => cases hshell
  | dir entries => cases hshell

theorem SameContents.locate?_eq (last : Last) (links : Nat) (place path : List Text) :
    t.locate? last links place path = t'.locate? last links place path := by
  -- a link starts a new path, of any length, with one link less to follow
  induction links using Nat.strongRecOn generalizing place path with
  | ind links hfewer =>
    induction path generalizing place with
    | nil => rw [locate?_nil, locate?_nil]
    | cons name rest ih =>
      rw [locate?_cons_shell, locate?_cons_shell, h, h]
      split
      · rw [ih]
      · split
        · split
          · rfl
          · split
            · rfl
            · exact hfewer _ (Nat.lt_succ_self _) _ _
        · exact ih _
        · rw [ih]

theorem SameContents.place?_eq (last : Last) (path : Text) :
    t.place? last path = t'.place? last path := by
  unfold place?
  rw [h.locate?_eq]

theorem SameContents.find? (path : Text) {found : FileTree} (hfound : t.find? path = some found) :
    ∃ found', t'.find? path = some found' ∧ SameContents found found' := by
  obtain ⟨names, hnames, hfound⟩ := Option.bind_eq_some_iff.mp hfound
  obtain ⟨found', hfound', hsame⟩ := h.at? hfound
  rw [h.place?_eq] at hnames
  exact ⟨found', Option.bind_eq_some_iff.mpr ⟨names, hnames, hfound'⟩, hsame⟩

theorem SameContents.find?_dir {path : Text} {entries : List (Text × FileTree)}
    (hfound : t.find? path = some (dir entries)) :
    ∃ entries', t'.find? path = some (dir entries') ∧ SameContents (dir entries) (dir entries') := by
  obtain ⟨found', hfound', hsame⟩ := h.find? path hfound
  have hshell : some (dir []) = some found'.shell := hsame []
  cases found' with
  | file content => cases hshell
  | link target => cases hshell
  | dir entries' => exact ⟨entries', hfound', hsame⟩

theorem SameContents.hasFile_eq (path : Text) : t.hasFile path = t'.hasFile path := by
  have hshell : ∀ found : Option FileTree, found.any isRegular = (found.map shell).any isRegular := by
    rintro (_ | _ | _ | _) <;> rfl
  unfold hasFile FileTree.find?
  rw [h.place?_eq]
  cases t'.place? .follow path with
  | none => rfl
  | some names => rw [Option.bind_some, Option.bind_some, hshell, h names, ← hshell]

end SameContents

end Deadwood.FileTree
