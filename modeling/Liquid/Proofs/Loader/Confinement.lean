import Liquid.Loader.Directory
import Liquid.Proofs.Files.Descent

/-!
# Template directories are not left

The name of a template is refused when it might lead out of the directory, and all others lead to
files in it: neither the path of a name nor that of the partial beside it steps above the root, with
whatever slashes, single dots and extension it is put together.
-/

namespace Liquid

open Files

namespace TemplateDirectory

/-- The name is empty, starts at the root of all files or with a single dot, or has a double dot
among its pieces. -/
def IsIllegal (name : String) : Prop :=
  name = "" ∨ name.startsWith "/" ∨ (pieces name.toList).head? = some ['.'] ∨
    ['.', '.'] ∈ pieces name.toList

/-- The path of the file of a name, below the root. -/
def relative (directory : TemplateDirectory) (name : String) : String :=
  name ++ "." ++ directory.extension

/-- A path goes down from a root by some steps that never lead above it. -/
def StaysBelow (root path : String) : Prop :=
  ∃ steps place, components path = components root ++ steps ∧ descend? [] steps = some place

lemma isLegal_eq_true_iff {name : String} :
    isLegal name = true ↔ name ≠ "" ∧ ∀ step ∈ components name, ∃ text, step = .normal text := by
  unfold isLegal
  rw [Bool.and_eq_true, bne_iff_ne, List.all_eq_true]
  refine and_congr_right fun _ => forall₂_congr fun step _ => ?_
  cases step <;> simp

lemma startsBelow_of_not_isIllegal {name : String} (h : ¬IsIllegal name) : StartsBelow name := by
  cases hp : pieces name.toList with
  | nil => exact absurd hp (pieces_ne_nil _)
  | cons first rest =>
    refine startsBelow_of_pieces hp ?_ ?_
    · rintro rfl
      obtain hempty | hslash := pieces_eq_nil_cons hp
      · exact h (.inl (String.toList_inj.1 hempty))
      · exact h (.inr (.inl (startsWith_slash_iff.2 hslash)))
    · rintro rfl
      exact h (.inr (.inr (.inl (by rw [hp]; rfl))))

lemma isLegal_iff {name : String} : isLegal name = true ↔ ¬IsIllegal name := by
  rw [isLegal_eq_true_iff]
  constructor
  · rintro ⟨hne, hall⟩ (hempty | hslash | hdot | hdots)
    · exact hne hempty
    · obtain ⟨rest, hrest⟩ := startsWith_slash_iff.1 hslash
      have hroot : Component.root ∈ components name := by
        rw [components_eq, hrest, pieces, if_pos rfl, stepsOf_cons (.inr (pieces_ne_nil rest))]
        exact List.mem_append_left _ List.mem_cons_self
      obtain ⟨text, htext⟩ := hall _ hroot
      cases htext
    · have hcurrent : Component.current ∈ components name := by
        rw [components_eq]
        obtain ⟨rest, hrest⟩ := List.head?_eq_some_iff.1 hdot
        rw [hrest, stepsOf_cons (.inl (by simp))]
        exact List.mem_append_left _ List.mem_cons_self
      obtain ⟨text, htext⟩ := hall _ hcurrent
      cases htext
    · have hparent : Component.parent ∈ components name := mem_stepsOf hdots rfl
      obtain ⟨text, htext⟩ := hall _ hparent
      cases htext
  · intro h
    refine ⟨fun hempty => h (.inl hempty), fun step hmem => ?_⟩
    rw [(startsBelow_of_not_isIllegal h).components_eq] at hmem
    obtain ⟨piece, hpiece, hstep⟩ := List.mem_filterMap.1 hmem
    have hdots : piece ≠ ['.', '.'] := by
      rintro rfl
      exact h (.inr (.inr (.inr hpiece)))
    exact ⟨_, eq_normal_of_componentOf? hstep hdots⟩

section Paths

variable {directory : TemplateDirectory} {name path spelling text : String}

lemma exists_names {ps : List (List Char)} (h : ['.', '.'] ∉ ps) :
    ∃ names : List String, ps.filterMap componentOf? = names.map .normal := by
  induction ps with
  | nil => exact ⟨[], rfl⟩
  | cons piece rest ih =>
    rw [List.mem_cons, not_or] at h
    obtain ⟨names, hnames⟩ := ih h.2
    cases hstep : componentOf? piece with
    | none => exact ⟨names, by rw [List.filterMap_cons_none hstep, hnames]⟩
    | some step =>
      refine ⟨String.ofList piece :: names, ?_⟩
      rw [List.filterMap_cons_some hstep, hnames, eq_normal_of_componentOf? hstep (Ne.symm h.1)]
      rfl

lemma pieces_relative {front : List (List Char)} {last : List Char}
    (hpieces : pieces name.toList = front ++ [last]) (hext : '/' ∉ directory.extension.toList) :
    pieces (directory.relative name).toList =
      front ++ [last ++ '.' :: directory.extension.toList] := by
  have htext : (directory.relative name).toList =
      name.toList ++ '.' :: directory.extension.toList := by
    unfold relative
    rw [String.toList_append, String.toList_append, List.append_assoc]
    rfl
  rw [htext]
  exact pieces_append_of_not_mem hpieces (by simpa using hext)

lemma componentOf?_extended {last extension : List Char} (hempty : last ≠ [])
    (hdot : last ≠ ['.']) : componentOf? (last ++ '.' :: extension) =
      some (.normal (String.ofList (last ++ '.' :: extension))) := by
  obtain ⟨c, cs, rfl⟩ := List.exists_cons_of_ne_nil hempty
  refine componentOf?_of_name (List.cons_ne_nil c _) ?_ ?_
  · simp
  · -- A double dot would start with the dot of a name that is no more than it.
    intro hdots
    obtain ⟨rfl, hrest⟩ := List.cons.inj hdots
    cases cs with
    | nil => exact hdot rfl
    | cons d ds => simp at hrest

/-- The path of a legal name goes down by one name at least, and at the most its last step goes up
again. -/
lemma components_relative (hname : ¬IsIllegal name) (hext : '/' ∉ directory.extension.toList) :
    StartsBelow (directory.relative name) ∧ ∃ names : List String, names ≠ [] ∧
      (components (directory.relative name) = names.map .normal ∨
        components (directory.relative name) = names.map .normal ++ [.parent]) := by
  obtain ⟨front, last, hpieces⟩ : ∃ front last, pieces name.toList = front ++ [last] :=
    ⟨_, _, (List.dropLast_concat_getLast (pieces_ne_nil _)).symm⟩
  have hstarts := startsBelow_of_not_isIllegal hname
  have hrelative := pieces_relative hpieces hext
  have hdots : ['.', '.'] ∉ front := by
    refine fun hmem => hname (.inr (.inr (.inr ?_)))
    rw [hpieces]
    exact List.mem_append_left _ hmem
  unfold StartsBelow at hstarts
  rw [hpieces] at hstarts
  cases front with
  | nil =>
    obtain ⟨hempty, hdot⟩ := hstarts last rfl
    have hstep : componentOf? (last ++ '.' :: directory.extension.toList) = _ :=
      componentOf?_extended hempty hdot
    obtain ⟨hempty', hdot'⟩ := ne_of_componentOf?_eq_some hstep
    have hbelow := startsBelow_of_pieces hrelative hempty' hdot'
    refine ⟨hbelow, [String.ofList (last ++ '.' :: directory.extension.toList)], by simp, .inl ?_⟩
    rw [hbelow.components_eq, hrelative]
    exact List.filterMap_cons_some hstep
  | cons first rest =>
    obtain ⟨hempty, hdot⟩ := hstarts first rfl
    rw [List.mem_cons, not_or] at hdots
    obtain ⟨names, hnames⟩ := exists_names hdots.2
    have hbelow := startsBelow_of_pieces hrelative hempty hdot
    refine ⟨hbelow, ?_⟩
    rw [hbelow.components_eq, hrelative, List.filterMap_append,
      List.filterMap_cons_some (componentOf?_of_name hempty hdot (Ne.symm hdots.1)), hnames]
    by_cases hup : last ++ '.' :: directory.extension.toList = ['.', '.']
    · exact ⟨String.ofList first :: names, List.cons_ne_nil _ _, .inr (by rw [hup]; rfl)⟩
    · have hnot : ['.', '.'] ∉ [last ++ '.' :: directory.extension.toList] := by
        simpa using Ne.symm hup
      obtain ⟨after, hafter⟩ := exists_names hnot
      refine ⟨String.ofList first :: names ++ after, by simp, .inl ?_⟩
      rw [hafter, List.map_append, List.map_cons]

/-- An extension of one dot makes a double dot of a slash at the end of a name. -/
example : components (relative ⟨.directory [], "templates", "."⟩ "snippets/") =
    [.normal "snippets", .parent] := by decide +kernel

lemma staysBelow_fullPath (hname : ¬IsIllegal name) (hext : '/' ∉ directory.extension.toList) :
    StaysBelow directory.root (join directory.root (directory.relative name)) := by
  obtain ⟨hbelow, names, hne, hsteps⟩ := components_relative hname hext
  have hjoin := components_join directory.root hbelow
  obtain hsteps | hsteps := hsteps
  · rw [hsteps] at hjoin
    exact ⟨_, _, hjoin, descend?_names [] names⟩
  · obtain ⟨last, above, hlast⟩ := List.exists_cons_of_ne_nil (List.reverse_ne_nil_iff.2 hne)
    rw [hsteps] at hjoin
    refine ⟨_, above, hjoin, ?_⟩
    rw [descend?_append, descend?_names, List.append_nil, hlast]
    rfl

lemma components_partialName {file : String} (hfile : '/' ∉ file.toList) :
    StartsBelow ("_" ++ file) ∧ components ("_" ++ file) = [.normal ("_" ++ file)] := by
  have htext : ("_" ++ file).toList = '_' :: file.toList := String.toList_append
  have hpieces : pieces ("_" ++ file).toList = [("_" ++ file).toList] :=
    pieces_of_not_mem (by simp [htext, hfile])
  have hempty : ("_" ++ file).toList ≠ [] := by simp [htext]
  have hdot : ("_" ++ file).toList ≠ ['.'] := by simp [htext]
  have hdots : ("_" ++ file).toList ≠ ['.', '.'] := by simp [htext]
  have hbelow := startsBelow_of_pieces hpieces hempty hdot
  have hstep := componentOf?_of_name hempty hdot hdots
  refine ⟨hbelow, ?_⟩
  rw [hbelow.components_eq, hpieces, List.filterMap_cons_some hstep, String.ofList_toList]
  rfl

lemma staysBelow_partialPath (hname : ¬IsIllegal name) (hext : '/' ∉ directory.extension.toList)
    (h : partialPath? (join directory.root (directory.relative name)) = some spelling) :
    StaysBelow directory.root spelling := by
  obtain ⟨hbelow, names, hne, hsteps⟩ := components_relative hname hext
  obtain ⟨file, hfile, rfl⟩ := Option.map_eq_some_iff.1 h
  have hend := components_directory hfile
  have hmem : .normal file ∈ components (join directory.root (directory.relative name)) := by
    rw [hend]
    exact List.mem_append_right _ List.mem_cons_self
  have hslash : '/' ∉ file.toList := slash_not_mem_of_normal_mem hmem
  obtain ⟨hbelow', hpartial⟩ := components_partialName hslash
  obtain ⟨front, last, rfl⟩ : ∃ front last, names = front ++ [last] :=
    ⟨_, _, (List.dropLast_concat_getLast hne).symm⟩
  rw [components_join _ hbelow] at hend
  obtain hsteps | hsteps := hsteps
  · rw [hsteps, List.map_append, ← List.append_assoc] at hend
    have hdirectory := (List.append_inj' hend rfl).1
    refine ⟨(front ++ ["_" ++ file]).map .normal, _, ?_, descend?_names [] _⟩
    rw [withFileName, components_join _ hbelow', ← hdirectory, hpartial, List.map_append,
      List.append_assoc]
    rfl
  · -- A path that ends in a double dot has no name at its end.
    rw [hsteps, ← List.append_assoc] at hend
    cases List.singleton_inj.1 (List.append_inj' hend rfl).2

lemma StaysBelow.exists_standsAt? {tree found : Tree} {root : String} (h : StaysBelow root path)
    (hfind : tree.find path = .ok found) : ∃ above start place,
      Tree.walk? [] tree (components root) = some (above, start) ∧
        start.standsAt? place = some found := by
  obtain ⟨steps, place, hsteps, hplace⟩ := h
  obtain ⟨around, hwalk⟩ := Tree.exists_walk?_of_find hfind
  rw [hsteps, Tree.walk?_append] at hwalk
  obtain ⟨⟨above, start⟩, hstart, hwalk⟩ := Option.bind_eq_some_iff.1 hwalk
  exact ⟨above, start, place.reverse, hstart, (Tree.Lies.root.walk? hwalk hplace).standsAt?⟩

lemma exists_file_of_readText {tree : Tree} (h : tree.readText path = .ok text) :
    ∃ bytes, tree.find path = .ok (.file bytes) ∧ String.fromUTF8? bytes = some text := by
  unfold Tree.readText at h
  dsimp only at h
  split at h
  · cases h
  · cases h
  · rename_i bytes hfind
    refine ⟨bytes, hfind, ?_⟩
    split at h
    · rename_i read hread
      cases h
      exact hread
    · cases h

lemma load_eq (h : directory.fullPath name = .ok path) : directory.load name =
    directory.tree.readText (if directory.tree.isFile path then path
      else ((partialPath? path).filter directory.tree.isFile).getD path) := by
  rw [load, h]
  rfl

lemma exists_spelling_of_load (h : directory.load name = .ok text) :
    ∃ path, directory.fullPath name = .ok path ∧
      ∃ spelling, (spelling = path ∨ partialPath? path = some spelling) ∧
        directory.tree.readText spelling = .ok text := by
  cases hpath : directory.fullPath name with
  | error e =>
    rw [load, hpath] at h
    cases h
  | ok path =>
    rw [load_eq hpath] at h
    refine ⟨path, rfl, _, ?_, h⟩
    split_ifs with hfile
    · exact .inl rfl
    · cases hfilter : (partialPath? path).filter directory.tree.isFile with
      | none => exact .inl rfl
      | some spelling => exact .inr (Option.eq_some_of_filter_eq_some hfilter)

end Paths

/-- A template directory is not left. Names that are empty, start at the root of all files or with a
single dot, or have a double dot among their pieces are refused. Any other name has a path, and the
steps of this path and of the partial beside it go on behind those of the root without ever leading
above it, doubled slashes, inner dots and an extension that makes a double dot of the last piece
included. The source of a name is therefore the text of a file in the directory at the root. -/
theorem load_staysBelow (directory : TemplateDirectory) (name : String)
    (hext : '/' ∉ directory.extension.toList) :
    (IsIllegal name → directory.fullPath name = .error (.load (.illegalName name))) ∧
    (¬IsIllegal name → ∃ path, directory.fullPath name = .ok path) ∧
    (∀ path, directory.fullPath name = .ok path →
      ∀ spelling, spelling = path ∨ partialPath? path = some spelling →
        StaysBelow directory.root spelling) ∧
    ∀ text, directory.load name = .ok text → ∃ above start place bytes,
      Tree.walk? [] directory.tree (components directory.root) = some (above, start) ∧
        start.standsAt? place = some (.file bytes) ∧ String.fromUTF8? bytes = some text := by
  have hpath : directory.fullPath name =
      if isLegal name then .ok (join directory.root (directory.relative name))
      else .error (.load (.illegalName name)) := rfl
  have hbelow : ∀ path, directory.fullPath name = .ok path →
      ∀ spelling, spelling = path ∨ partialPath? path = some spelling →
        StaysBelow directory.root spelling := by
    intro path hok spelling hspelling
    rw [hpath] at hok
    split_ifs at hok with hlegal
    cases hok
    have hname := isLegal_iff.1 hlegal
    obtain rfl | hpartial := hspelling
    · exact staysBelow_fullPath hname hext
    · exact staysBelow_partialPath hname hext hpartial
  refine ⟨fun hname => ?_, fun hname => ?_, hbelow, fun text hload => ?_⟩
  · rw [hpath, if_neg fun hlegal => isLegal_iff.1 hlegal hname]
  · exact ⟨_, by rw [hpath, if_pos (isLegal_iff.2 hname)]⟩
  · obtain ⟨path, hok, spelling, hspelling, hread⟩ := exists_spelling_of_load hload
    obtain ⟨bytes, hfind, htext⟩ := exists_file_of_readText hread
    obtain ⟨above, start, place, hstart, hentry⟩ :=
      (hbelow path hok spelling hspelling).exists_standsAt? hfind
    exact ⟨above, start, place, bytes, hstart, hentry, htext⟩

/-- A directory of templates with a partial in a directory of its own. -/
def snippets : TemplateDirectory where
  tree := .directory
    [("templates", .directory [("snippets", .directory [("_product.liquid", .file ⟨#[80]⟩)])])]
  root := "templates"

theorem load_staysBelow_snippets :
    '/' ∉ snippets.extension.toList ∧
    snippets.fullPath "snippets/../../secret" =
      .error (.load (.illegalName "snippets/../../secret")) ∧
    StaysBelow "templates" "templates/snippets//./product.liquid" ∧
    StaysBelow "templates" "templates/snippets/_product.liquid" ∧
    ∃ above start place bytes,
      Tree.walk? [] snippets.tree (components "templates") = some (above, start) ∧
        start.standsAt? place = some (.file bytes) ∧ String.fromUTF8? bytes = some "P" := by
  have hext : '/' ∉ snippets.extension.toList := by decide
  have hrefused : IsIllegal "snippets/../../secret" := .inr (.inr (.inr (by decide)))
  have hpath : snippets.fullPath "snippets//./product" =
      .ok "templates/snippets//./product.liquid" := by
    rw [fullPath, if_pos (by decide)]
    exact congrArg Except.ok (by decide +kernel)
  have hpartial : partialPath? "templates/snippets//./product.liquid" =
      some "templates/snippets/_product.liquid" := by decide +kernel
  have hfile : snippets.tree.isFile "templates/snippets//./product.liquid" = false := by
    rw [Tree.isFile, Tree.find, if_neg (by simp), if_neg (by decide +kernel),
      if_neg (by decide +kernel)]
    rfl
  have hfind : snippets.tree.find "templates/snippets/_product.liquid" = .ok (.file ⟨#[80]⟩) := by
    rw [Tree.find, if_neg (by simp), if_neg (by decide +kernel), if_neg (by decide +kernel)]
    rfl
  have htext : String.fromUTF8? ⟨#[80]⟩ = some "P" := by decide +kernel
  have hchosen : snippets.tree.isFile "templates/snippets/_product.liquid" = true := by
    rw [Tree.isFile, hfind]
  have hload : snippets.load "snippets//./product" = .ok "P" := by
    rw [load_eq hpath, hpartial, Option.filter_some, if_pos hchosen, hfile, Tree.readText]
    simp [hfind, htext]
  obtain ⟨-, -, hbelow, hstands⟩ := load_staysBelow snippets "snippets//./product" hext
  exact ⟨hext, (load_staysBelow snippets "snippets/../../secret" hext).1 hrefused,
    hbelow _ hpath _ (.inl rfl), hbelow _ hpath _ (.inr hpartial), hstands _ hload⟩

end TemplateDirectory

end Liquid
