import SatSearch.Proofs.Trees

/-!
# The formulas in a folder

Paths are listed in the lexicographic order of their parts (`Path.partsLe_iff`), so a list of paths that are all
different has one order only. Main statement: the instances of a folder are the entries below it whose name ends
in `.cnf`, each of them once and in the order of their parts, whatever order they were created in, and a limit
cuts this list (`Files.folderInstances_listed`).
-/

namespace SatSearch

/-! ### The order of paths -/

namespace Path

theorem partsLe_iff {a b : List String} : partsLe a b = true ↔ a ≤ b := by
  rw [← not_lt]
  induction a generalizing b with
  | nil => simp [partsLe]
  | cons x a ih =>
    cases b with
    | nil => simp [partsLe]
    | cons y b =>
      rw [partsLe, List.cons_lt_cons_iff, not_or, not_and]
      by_cases hxy : x = y
      · subst hxy
        simp [ih]
      · simp [hxy, Ne.symm hxy, lt_iff_le_and_ne]

theorem append_lt_append_iff {front a b : List String} : front ++ a < front ++ b ↔ a < b := by
  induction front with
  | nil => rfl
  | cons x front ih =>
    rw [List.cons_append, List.cons_append, List.cons_lt_cons_iff, ih]
    simp

end Path

/-! ### Limits -/

section Limits

variable {α : Type}

/-- The place where a limit ends a list of this length. A negative one is counted from the end of the list. -/
def limitEnd (n : Int) (length : Nat) : Int :=
  if n < 0 then length + n else n

theorem getElem?_takeLimit (n : Int) (as : List α) (j : Nat) :
    (takeLimit n as)[j]? = if (j : Int) < limitEnd n as.length then as[j]? else none := by
  unfold takeLimit limitEnd
  split_ifs with hneg hj hj
  · rw [List.getElem?_take_of_lt (by omega)]
  · rw [List.getElem?_take_eq_none (by omega)]
  · rw [List.getElem?_take_of_lt (by omega)]
  · rw [List.getElem?_take_eq_none (by omega)]

theorem takeLimit_prefix_takeLimit {m n : Int} (hm : 0 ≤ m) (hmn : m ≤ n) (as : List α) :
    takeLimit m as <+: takeLimit n as := by
  rw [takeLimit, if_neg (by omega), takeLimit, if_neg (by omega)]
  exact List.take_prefix_take_left (by omega)

end Limits

namespace Files

variable {fs fs' : Files} {folder : Path} {place parts : List String}

/-- The parts lead from a folder down to an entry. -/
def LiesBelow (fs : Files) (folder : Path) (parts : List String) : Prop :=
  ∃ place, fs.place folder.text = .ok place ∧ fs.Descends place parts

/-- The name of a folder is too long to look for it. -/
def IsUnnameable (fs : Files) (folder : Path) : Prop :=
  hasZero folder.text = false ∧ fs.place folder.text = .error .nameTooLong

/-- All formulas below a folder, each of them once, in the order of the parts of their paths. -/
structure ListsFormulas (fs : Files) (folder : Path) (found : List (List String)) : Prop where
  mem_iff (parts : List String) : parts ∈ found ↔
    fs.LiesBelow folder parts ∧ ∃ front stem, parts = front ++ [stem ++ ".cnf"]
  ascending : found.Pairwise fun a b => (folder.append a).parts < (folder.append b).parts

/-! ### The formulas below a directory -/

theorem getLastD_endsWith_cnf_iff (hne : parts ≠ []) :
    (parts.getLastD "").endsWith ".cnf" = true ↔ ∃ front stem, parts = front ++ [stem ++ ".cnf"] := by
  obtain ⟨front, name, rfl⟩ := parts.eq_nil_or_concat'.resolve_left hne
  rw [List.getLastD_concat, endsWith_iff]
  constructor
  · rintro ⟨stem, hstem⟩
    refine ⟨front, String.ofList stem, ?_⟩
    rw [← String.ofList_toList (s := name), ← hstem, String.ofList_append, String.ofList_toList]
  · rintro ⟨front', stem, heq⟩
    obtain ⟨-, hlast⟩ := List.append_inj' heq rfl
    rw [List.singleton_inj.1 hlast, String.toList_append]
    exact List.suffix_append _ _

theorem perm_formulasBelow (fs : Files) (place : List String) :
    (fs.formulasBelow place).Perm
      ((fs.below place).filter fun parts => (parts.getLastD "").endsWith ".cnf") :=
  List.mergeSort_perm _ _

theorem pairwise_le_formulasBelow (fs : Files) (place : List String) :
    (fs.formulasBelow place).Pairwise (· ≤ ·) := by
  refine (List.pairwise_mergeSort ?_ ?_ _).imp Path.partsLe_iff.1
  · intro a b c hab hbc
    exact Path.partsLe_iff.2 ((Path.partsLe_iff.1 hab).trans (Path.partsLe_iff.1 hbc))
  · intro a b
    rw [Bool.or_eq_true, Path.partsLe_iff, Path.partsLe_iff]
    exact le_total a b

namespace IsTree

variable (htree : fs.IsTree)

include htree

theorem mem_formulasBelow (hplace : fs.entry? place = some .directory) :
    parts ∈ fs.formulasBelow place ↔
      fs.Descends place parts ∧ ∃ front stem, parts = front ++ [stem ++ ".cnf"] := by
  rw [(perm_formulasBelow fs place).mem_iff, List.mem_filter, htree.mem_below_iff hplace]
  exact and_congr_right fun h => getLastD_endsWith_cnf_iff h.ne_nil

theorem pairwise_formulasBelow (place : List String) : (fs.formulasBelow place).Pairwise (· < ·) := by
  have hnodup : (fs.formulasBelow place).Nodup :=
    (perm_formulasBelow fs place).nodup_iff.2 ((htree.nodup_below place).filter _)
  exact ((pairwise_le_formulasBelow fs place).and hnodup).imp fun h => lt_of_le_of_ne h.1 h.2

end IsTree

/-- A list without repetitions has one order only. -/
theorem formulasBelow_eq_of_perm (hperm : fs.entries.Perm fs'.entries) (place : List String) :
    fs'.formulasBelow place = fs.formulasBelow place := by
  have hbelow : (fs.below place).Perm (fs'.below place) := hperm.filterMap _
  refine List.Perm.eq_of_pairwise' (pairwise_le_formulasBelow fs' place)
    (pairwise_le_formulasBelow fs place) ?_
  exact (perm_formulasBelow fs' place).trans
    ((hbelow.filter _).symm.trans (perm_formulasBelow fs place).symm)

/-! ### The instances of a folder -/

theorem ListsFormulas.of_pairwise {found : List (List String)}
    (hmem : ∀ parts, parts ∈ found ↔
      fs.LiesBelow folder parts ∧ ∃ front stem, parts = front ++ [stem ++ ".cnf"])
    (hfound : found.Pairwise (· < ·)) : fs.ListsFormulas folder found where
  mem_iff := hmem
  ascending := hfound.imp Path.append_lt_append_iff.2

/-- There is no other list of the formulas below a folder. -/
theorem ListsFormulas.eq {found found' : List (List String)} (h : fs.ListsFormulas folder found)
    (h' : fs.ListsFormulas folder found') : found = found' := by
  have hascending : ∀ {l}, fs.ListsFormulas folder l → l.Pairwise (· < ·) := fun hl =>
    hl.ascending.imp Path.append_lt_append_iff.1
  have hnodup : ∀ {l}, fs.ListsFormulas folder l → l.Nodup := fun hl => (hascending hl).imp ne_of_lt
  have hperm : found.Perm found' := (List.perm_ext_iff_of_nodup (hnodup h) (hnodup h')).2 fun parts =>
    (h.mem_iff parts).trans (h'.mem_iff parts).symm
  exact hperm.eq_of_pairwise' (hascending h) (hascending h')

theorem IsTree.listsFormulas (htree : fs.IsTree) (hplace : fs.place folder.text = .ok place)
    (hentry : fs.entry? place = some .directory) : fs.ListsFormulas folder (fs.formulasBelow place) := by
  refine .of_pairwise ?_ (htree.pairwise_formulasBelow place)
  intro parts
  rw [htree.mem_formulasBelow hentry, LiesBelow, hplace]
  simp

/-- The formulas in a folder are listed, unless its name is too long. -/
theorem IsTree.exists_formulaFiles (htree : fs.IsTree) (folder : Path) :
    ∃ found, fs.ListsFormulas folder found ∧
      (fs.IsUnnameable folder → fs.formulaFiles folder = .error (.fault .nameTooLong folder.text)) ∧
      (¬ fs.IsUnnameable folder → fs.formulaFiles folder = .ok found) := by
  by_cases hdirectory : ∃ place, fs.place folder.text = .ok place ∧ fs.entry? place = some .directory
  · obtain ⟨place, hplace, hentry⟩ := hdirectory
    have hzero : hasZero folder.text = false := htree.hasZero_eq_false_of_place hplace hentry
    refine ⟨fs.formulasBelow place, htree.listsFormulas hplace hentry, ?_, ?_⟩
    · rintro ⟨-, hlong⟩
      rw [hplace] at hlong
      cases hlong
    · intro _
      rw [formulaFiles, hzero, hplace, if_neg Bool.false_ne_true]
      simp only [hentry, if_true]
  · -- Without a directory nothing lies below it.
    refine ⟨[], .of_pairwise ?_ List.Pairwise.nil, ?_, ?_⟩
    · intro parts
      rw [iff_false_left List.not_mem_nil]
      rintro ⟨⟨place, hplace, hdescends⟩, -⟩
      exact hdirectory ⟨place, hplace, hdescends.entry?_eq⟩
    · rintro ⟨hzero, hlong⟩
      rw [formulaFiles, hzero, hlong, if_neg Bool.false_ne_true]
    · intro hnameable
      rw [formulaFiles]
      split_ifs with hzero
      · rfl
      · split
        · next hlong => exact absurd ⟨Bool.eq_false_iff.2 hzero, hlong⟩ hnameable
        · rfl
        · next place hplace =>
          rw [if_neg fun hentry => hdirectory ⟨place, hplace, hentry⟩]

theorem formulaFiles_eq_of_perm (htree : fs.IsTree) (hperm : fs.entries.Perm fs'.entries) (folder : Path) :
    fs'.formulaFiles folder = fs.formulaFiles folder := by
  unfold formulaFiles
  simp only [place_congr (htree.entry?_eq_of_perm hperm), htree.entry?_eq_of_perm hperm,
    formulasBelow_eq_of_perm hperm]

theorem folderInstances_eq_of_perm (htree : fs.IsTree) (hperm : fs.entries.Perm fs'.entries) (folder : String)
    (limit : Option Int) : fs'.folderInstances folder limit = fs.folderInstances folder limit := by
  have hinstance : fs'.folderInstance (.ofString folder) = fs.folderInstance (.ofString folder) := by
    funext parts
    unfold folderInstance
    simp only [read_congr (htree.entry?_eq_of_perm hperm)]
  rw [folderInstances, formulaFiles_eq_of_perm htree hperm, hinstance]
  rfl

/-- A folder of a tree has an instance for each entry below it whose name ends in `.cnf`, at whatever depth, and
no other; they come in the order of the parts of their paths. With a limit they are those in front of the place
where it ends the list, so a greater limit only adds instances at the end. A folder with a name that is too
long is refused. Nothing of it depends on the order of the entries. Trees have no bound on their depth or on the
length of the paths in them, and no directories that cannot be read. -/
theorem folderInstances_listed (htree : fs.IsTree) (folder : String) :
    ∃ found, fs.ListsFormulas (.ofString folder) found ∧
      (fs.IsUnnameable (.ofString folder) → ∀ limit,
        fs.folderInstances folder limit = .error (.fault .nameTooLong (Path.ofString folder).text)) ∧
      (¬ fs.IsUnnameable (.ofString folder) → ∃ all,
        all = found.map (fs.folderInstance (.ofString folder)) ∧
        fs.folderInstances folder none = .ok all ∧
        (∀ n, ∃ kept, fs.folderInstances folder (some n) = .ok kept ∧
          ∀ j : Nat, kept[j]? = if (j : Int) < limitEnd n all.length then all[j]? else none) ∧
        ∀ m n, 0 ≤ m → m ≤ n → ∃ first second, fs.folderInstances folder (some m) = .ok first ∧
          fs.folderInstances folder (some n) = .ok second ∧ first <+: second) ∧
      ∀ fs' : Files, fs.entries.Perm fs'.entries → ∀ limit,
        fs'.folderInstances folder limit = fs.folderInstances folder limit := by
  obtain ⟨found, hlists, hrefused, hfound⟩ := htree.exists_formulaFiles (.ofString folder)
  refine ⟨found, hlists, ?_, ?_, fun fs' hperm => folderInstances_eq_of_perm htree hperm folder⟩
  · intro hlong limit
    rw [folderInstances, hrefused hlong]
    rfl
  · intro hnameable
    have hlimit : ∀ n, fs.folderInstances folder (some n) =
        .ok ((takeLimit n found).map (fs.folderInstance (.ofString folder))) := by
      intro n
      rw [folderInstances, hfound hnameable]
      rfl
    refine ⟨_, rfl, ?_, ?_, ?_⟩
    · rw [folderInstances, hfound hnameable]
      rfl
    · intro n
      refine ⟨_, hlimit n, ?_⟩
      intro j
      rw [List.getElem?_map, getElem?_takeLimit, List.length_map, List.getElem?_map]
      split_ifs <;> rfl
    · intro m n hm hmn
      exact ⟨_, _, hlimit m, hlimit n, (takeLimit_prefix_takeLimit hm hmn found).map _⟩

/-- A directory named as a formula, with a formula in it, and a name that comes behind another one as a text but
before it as a list of parts. -/
def benchmarks : Files :=
  ⟨[(["b"], .directory), (["b", "a-b.cnf"], .file []), (["b", "d.cnf"], .directory),
    (["b", "d.cnf", ".cnf"], .file []), (["b", "a"], .directory), (["b", "a", "x.cnf"], .file []),
    (["b", "x.CNF"], .file [])]⟩

theorem isTree_benchmarks : benchmarks.IsTree where
  nodup := by decide
  isInDirectory := by
    have hname : ∀ name ∈ ["b", "a-b.cnf", "d.cnf", ".cnf", "a", "x.cnf", "x.CNF"], IsName name := by
      intro name hname
      fin_cases hname <;> exact ⟨by decide, by decide, by decide, by decide⟩
    intro place hplace
    refine ⟨place.dropLast, place.getLastD "", ?_, hname _ ?_, ?_⟩ <;> revert place <;> decide

theorem formulasBelow_benchmarks :
    benchmarks.formulasBelow ["b"] = [["a", "x.cnf"], ["a-b.cnf"], ["d.cnf"], ["d.cnf", ".cnf"]] := by
  have hfound : ((benchmarks.below ["b"]).filter fun parts => (parts.getLastD "").endsWith ".cnf") =
      [["a-b.cnf"], ["d.cnf"], ["d.cnf", ".cnf"], ["a", "x.cnf"]] := by cbv
  refine List.Perm.eq_of_pairwise' (pairwise_le_formulasBelow benchmarks ["b"]) ?_
    ((perm_formulasBelow benchmarks ["b"]).trans ?_)
  · decide
  · rw [hfound]
    decide

theorem folderInstances_listed_benchmarks :
    benchmarks.IsTree ∧ benchmarks.entries.Perm benchmarks.entries.reverse ∧
      ∃ kept, folderInstances ⟨benchmarks.entries.reverse⟩ "b" (some (-1)) = .ok kept ∧
        kept.map (·.name) = ["a/x.cnf", "a-b.cnf", "d.cnf"] := by
  have hplace : benchmarks.place (Path.ofString "b").text = .ok ["b"] :=
    place_name (by decide) (by decide) (by decide) (by decide)
  have hperm := (List.reverse_perm benchmarks.entries).symm
  obtain ⟨found, hlists, -, hlisted, hsame⟩ := folderInstances_listed isTree_benchmarks "b"
  have hfound : found = [["a", "x.cnf"], ["a-b.cnf"], ["d.cnf"], ["d.cnf", ".cnf"]] := by
    rw [← formulasBelow_benchmarks]
    exact hlists.eq (isTree_benchmarks.listsFormulas hplace rfl)
  obtain ⟨all, hall, -, hlimit, -⟩ := hlisted fun h => by
    rw [IsUnnameable, hplace] at h
    cases h.2
  obtain ⟨kept, hkept, hplaces⟩ := hlimit (-1)
  have htake : kept = all.take 3 := by
    refine List.ext_getElem? fun j => ?_
    rw [hplaces, hall, hfound, List.getElem?_take]
    simp only [limitEnd, List.length_map, List.length_cons, List.length_nil]
    exact if_congr (by omega) rfl rfl
  refine ⟨isTree_benchmarks, hperm, kept, (hsame ⟨_⟩ hperm _).trans hkept, ?_⟩
  rw [htake, hall, hfound]
  rfl

end Files

end SatSearch
