import SatSearch.Bench.Folder
import SatSearch.Proofs.Paths

/-!
# Trees

In a tree every entry stands in a directory under a name of its own (`Files.IsTree`). Without entries there is
a tree (`isTree_empty`), writing files and making directories keeps it one (`IsTree.of_write`,
`IsTree.of_makeDirectories`), and the order of its entries makes no difference to what stands where
(`IsTree.entry?_eq_of_perm`). Main statement: the entries below a
directory are those that one comes to by going down from directory to directory (`IsTree.mem_below_iff`).
-/

namespace SatSearch.Files

/-- The places of the entries, in order of creation. -/
def places (fs : Files) : List (List String) :=
  fs.entries.map Prod.fst

/-- A name under which something can stand in a directory. -/
structure IsName (name : String) : Prop where
  isPart : Path.isPart name = true
  ne_dots : name ≠ ".."
  slash_not_mem : '/' ∉ name.toList
  hasZero_eq_false : hasZero name = false

/-- The place is that of a name in a directory. -/
def IsInDirectory (fs : Files) (place : List String) : Prop :=
  ∃ directory name, place = directory ++ [name] ∧ IsName name ∧ fs.entry? directory = some .directory

/-- Every entry stands in a directory, and none is listed twice. -/
structure IsTree (fs : Files) : Prop where
  nodup : fs.places.Nodup
  isInDirectory : ∀ place ∈ fs.places, fs.IsInDirectory place

/-- Something stands in a directory under a name. -/
def Has (fs : Files) (directory : List String) (name : String) : Prop :=
  fs.entry? directory = some .directory ∧ directory ++ [name] ∈ fs.places

/-- The ways down from a directory to an entry: one name after another, each of them standing in the directory
that the names before it lead to. -/
inductive Descends (fs : Files) : List String → List String → Prop where
  | entry {directory : List String} {name : String} (h : fs.Has directory name) :
      fs.Descends directory [name]
  | further {directory parts : List String} {name : String} (h : fs.Has directory name)
      (hparts : fs.Descends (directory ++ [name]) parts) : fs.Descends directory (name :: parts)

variable {fs fs' : Files} {place directory parts : List String} {name : String}

/-! ### Places above -/

theorem isAbove_iff : isAbove place = true ↔ place = root ∨ ∀ part ∈ place, part = ".." := by
  simp [isAbove]

theorem isAbove_of_append {rest : List String} (h : isAbove (place ++ rest) = true) :
    isAbove place = true := by
  rw [isAbove_iff] at h ⊢
  rcases h with h | h
  · rcases List.append_eq_singleton_iff.1 h with ⟨rfl, -⟩ | ⟨rfl, -⟩
    · exact .inr (List.forall_mem_nil _)
    · exact .inl rfl
  · exact .inr fun part hpart => h part (List.mem_append_left _ hpart)

theorem isAbove_concat (hname : name ≠ "..") (hslash : '/' ∉ name.toList) :
    isAbove (place ++ [name]) = false := by
  rw [Bool.eq_false_iff, ne_eq, isAbove_iff, not_or]
  constructor
  · intro h
    rcases List.append_eq_singleton_iff.1 h with ⟨-, h⟩ | ⟨-, h⟩
    · obtain rfl := List.singleton_inj.1 h
      exact hslash (by decide)
    · cases h
  · intro h
    exact hname (h name (List.mem_append_right _ List.mem_cons_self))

theorem entry?_of_isAbove (fs : Files) (h : isAbove place = true) : fs.entry? place = some .directory := by
  unfold entry?
  rw [if_pos h]

theorem entry?_startOf (fs : Files) (path : String) : fs.entry? (startOf path) = some .directory := by
  refine fs.entry?_of_isAbove ?_
  unfold startOf
  split_ifs <;> rfl

/-! ### The character zero -/

theorem hasZero_iff {s : String} : hasZero s = true ↔ Char.ofNat 0 ∈ s.toList :=
  List.contains_iff_mem

/-- The character zero stands in a path exactly if it stands in one of its pieces. -/
theorem hasZero_iff_exists_piece {s : String} :
    hasZero s = true ↔ ∃ piece ∈ Path.pieces s, hasZero piece = true := by
  have hpieces : s.toList.filter (· == Char.ofNat 0) =
      ((Path.pieces s).map String.toList).flatMap (List.filter (· == Char.ofNat 0)) := by
    conv_lhs => rw [← Path.intercalate_pieces s, String.toList_intercalate]
    refine apply_intercalate rfl ?_ _
    intro front rest
    rw [List.filter_append, List.filter_cons_of_neg (by decide)]
  have hmem : ∀ l : List Char, Char.ofNat 0 ∈ l ↔ Char.ofNat 0 ∈ l.filter (· == Char.ofNat 0) := by
    intro l
    simp
  rw [hasZero_iff, hmem, hpieces, List.mem_flatMap]
  simp only [List.mem_map, exists_exists_and_eq_and, ← hmem, hasZero_iff]

theorem hasZero_bare {path : String} (h : hasZero path = false) : hasZero (bare path) = false := by
  rw [Bool.eq_false_iff, ne_eq, hasZero_iff] at h ⊢
  rw [bare]
  cases hdrop : path.toList.reverse.dropWhile (· == '/') with
  | nil => exact h
  | cons c l =>
    dsimp only
    rw [String.toList_ofList, ← hdrop, List.mem_reverse]
    exact fun hmem => h (List.mem_reverse.1 ((List.dropWhile_sublist _).subset hmem))

/-! ### Places of entries -/

theorem mem_places_iff : place ∈ fs.places ↔ (fs.entries.lookup place).isSome = true := by
  rw [List.lookup_isSome_iff, places, List.mem_map]
  simp only [beq_iff_eq, @eq_comm _ place]

theorem mem_places_of_entry?_eq {e : Entry} (habove : isAbove place = false) (h : fs.entry? place = some e) :
    place ∈ fs.places := by
  unfold entry? at h
  rw [habove, if_neg Bool.false_ne_true] at h
  rw [mem_places_iff, h]
  rfl

theorem places_put_of_mem (e : Entry) (h : place ∈ fs.places) : (fs.put place e).places = fs.places := by
  rw [put, if_pos (mem_places_iff.1 h), places, places, List.map_map]
  refine List.map_congr_left ?_
  rintro ⟨p, old⟩ _
  by_cases hp : p = place <;> simp [hp]

theorem places_put_of_not_mem (e : Entry) (h : place ∉ fs.places) :
    (fs.put place e).places = fs.places ++ [place] := by
  rw [put, if_neg (mt mem_places_iff.2 h), places, List.map_append]
  rfl

/-! ### Trees -/

theorem isTree_empty : IsTree ⟨[]⟩ where
  nodup := List.nodup_nil
  isInDirectory := List.forall_mem_nil _

namespace IsTree

variable (htree : fs.IsTree)

include htree

theorem isAbove_eq_false (h : place ∈ fs.places) : isAbove place = false := by
  obtain ⟨directory, name, rfl, hname, -⟩ := htree.isInDirectory place h
  exact isAbove_concat hname.ne_dots hname.slash_not_mem

theorem isName (h : directory ++ [name] ∈ fs.places) : IsName name := by
  obtain ⟨directory', name', heq, hname, -⟩ := htree.isInDirectory _ h
  obtain ⟨-, hlast⟩ := List.append_inj' heq rfl
  rwa [List.singleton_inj.1 hlast]

/-- Whatever an entry lies in is a directory. -/
theorem entry?_of_append {rest : List String} (h : place ++ rest ∈ fs.places) (hrest : rest ≠ []) :
    fs.entry? place = some .directory := by
  induction rest using List.reverseRecOn with
  | nil => exact absurd rfl hrest
  | append_singleton rest name ih =>
    obtain ⟨directory, name', heq, -, hdirectory⟩ := htree.isInDirectory _ h
    rw [← List.append_assoc] at heq
    obtain ⟨rfl, -⟩ := List.append_inj' heq rfl
    by_cases hnil : rest = []
    · rwa [hnil, List.append_nil] at hdirectory
    · cases habove : isAbove (place ++ rest) with
      | true => exact fs.entry?_of_isAbove (isAbove_of_append habove)
      | false => exact ih (mem_places_of_entry?_eq habove hdirectory) hnil

theorem entry?_stepUp (h : fs.entry? place = some .directory) :
    fs.entry? (stepUp place) = some .directory := by
  unfold stepUp
  split_ifs with hroot hdots
  · exact fs.entry?_of_isAbove rfl
  · refine fs.entry?_of_isAbove (isAbove_iff.2 (.inr ?_))
    rintro part hpart
    rcases List.mem_append.1 hpart with hpart | hpart
    · exact beq_iff_eq.1 (List.all_eq_true.1 hdots part hpart)
    · exact List.mem_singleton.1 hpart
  · have habove : isAbove place = false := by
      rw [isAbove, Bool.or_eq_false_iff]
      exact ⟨Bool.eq_false_iff.2 hroot, Bool.eq_false_iff.2 hdots⟩
    obtain ⟨directory, name, rfl, -, hdirectory⟩ :=
      htree.isInDirectory place (mem_places_of_entry?_eq habove h)
    rwa [List.dropLast_concat]

/-! ### Changing trees -/

theorem put {e : Entry} (hplace : fs.IsInDirectory place) (hfree : fs.entry? place ≠ some .directory) :
    (fs.put place e).IsTree := by
  have hkept : ∀ p, fs.IsInDirectory p → (fs.put place e).IsInDirectory p := by
    rintro p ⟨directory, name, rfl, hname, hdirectory⟩
    refine ⟨directory, name, rfl, hname, ?_⟩
    rwa [entry?_put_of_ne fs e]
    rintro rfl
    exact hfree hdirectory
  by_cases hmem : place ∈ fs.places
  · refine ⟨?_, ?_⟩ <;> rw [places_put_of_mem e hmem]
    · exact htree.nodup
    · exact fun p hp => hkept p (htree.isInDirectory p hp)
  · refine ⟨?_, ?_⟩ <;> rw [places_put_of_not_mem e hmem]
    · exact List.concat_eq_append ▸ htree.nodup.concat hmem
    · intro p hp
      rcases List.mem_append.1 hp with hp | hp
      · exact hkept p (htree.isInDirectory p hp)
      · rw [List.mem_singleton.1 hp]
        exact hkept place hplace

/-- A way that can be followed ends at a directory or at a name in one. -/
theorem isInDirectory_of_follow {start : List String}
    (hparts : ∀ part ∈ parts, '/' ∉ part.toList ∧ hasZero part = false)
    (hstart : fs.entry? start = some .directory ∨ fs.IsInDirectory start)
    (h : fs.follow start parts = .ok place) (hplace : fs.entry? place ≠ some .directory) :
    fs.IsInDirectory place := by
  induction parts generalizing start with
  | nil =>
    cases h
    exact hstart.resolve_left hplace
  | cons part rest ih =>
    obtain ⟨⟨hslash, hzero⟩, hrest⟩ := List.forall_mem_cons.1 hparts
    by_cases hdirectory : fs.entry? start = some .directory
    · rw [follow_cons part rest hdirectory] at h
      split_ifs at h with hskip hdots hlong
      · exact ih hrest (.inl hdirectory) h
      · exact ih hrest (.inl (htree.entry?_stepUp hdirectory)) h
      · have hname : IsName part := ⟨Path.isPart_iff.2 (not_or.1 hskip), hdots, hslash, hzero⟩
        exact ih hrest (.inr ⟨start, part, rfl, hname, hdirectory⟩) h
    · obtain ⟨e, he⟩ := exists_of_ne_directory hdirectory
      rw [he] at h
      cases h

theorem isInDirectory_of_place {path : String} (hzero : hasZero path = false) (h : fs.place path = .ok place)
    (hplace : fs.entry? place ≠ some .directory) : fs.IsInDirectory place := by
  unfold Files.place at h
  split_ifs at h
  refine htree.isInDirectory_of_follow ?_ (.inl (fs.entry?_startOf path)) h hplace
  intro part hpart
  refine ⟨Path.slash_not_mem_of_mem_pieces hpart, ?_⟩
  rw [Bool.eq_false_iff] at hzero ⊢
  exact fun hpiece => hzero (hasZero_iff_exists_piece.2 ⟨part, hpart, hpiece⟩)

theorem of_write {path : String} {bytes : List UInt8} (h : fs.write path bytes = .ok fs') : fs'.IsTree := by
  obtain ⟨hzero, -, -, place, hplace, hfree, rfl⟩ := write_eq_ok_iff.1 h
  exact htree.put (htree.isInDirectory_of_place hzero hplace hfree) hfree

theorem of_makeDirectory {path : String} (h : fs.makeDirectory path = .ok fs') : fs'.IsTree := by
  rw [makeDirectory, onPath_eq_ok_iff] at h
  obtain ⟨hzero, -, hmade⟩ := h
  cases hplace : fs.place (bare path) with
  | error e =>
    rw [hplace] at hmade
    cases hmade
  | ok place =>
    rw [hplace] at hmade
    cases hentry : fs.entry? place with
    | some e =>
      simp only [bind, Except.bind, hentry] at hmade
      cases hmade
    | none =>
      simp only [bind, Except.bind, hentry] at hmade
      cases hmade
      have hfree : fs.entry? place ≠ some .directory := by simp [hentry]
      exact htree.put (htree.isInDirectory_of_place (hasZero_bare hzero) hplace hfree) hfree

theorem ensureDirectory (path : String) : (fs.ensureDirectory path).1.IsTree := by
  rw [Files.ensureDirectory]
  cases hmade : fs.makeDirectory path with
  | ok fs' => exact htree.of_makeDirectory hmade
  | error e => exact htree

theorem ensureDirectories (path : List Char) : (fs.ensureDirectories path).1.IsTree := by
  fun_induction Files.ensureDirectories fs path with
  | case1 path _ made hmade _ ih | case3 path _ made _ hmade _ ih => rwa [hmade] at ih
  | case2 path _ made hmade _ ih | case4 path _ made _ hmade _ ih =>
    rw [hmade] at ih
    exact ih.ensureDirectory _
  | case5 path _ made e _ hmade ih => rwa [hmade] at ih
  | case6 path _ => exact htree.ensureDirectory _

theorem of_makeDirectories {path : List Char} (h : fs.makeDirectories path = .ok fs') : fs'.IsTree := by
  have hmade := htree.ensureDirectories path
  rw [makeDirectories] at h
  split at h
  · next heq =>
    cases h
    rwa [heq] at hmade
  · cases h

end IsTree

/-! ### The order of the entries -/

section Congr

variable (h : ∀ place, fs'.entry? place = fs.entry? place)

include h

theorem follow_congr (start parts : List String) : fs'.follow start parts = fs.follow start parts := by
  induction parts generalizing start with
  | nil => rfl
  | cons part rest ih =>
    unfold follow
    simp only [h, ih]

theorem place_congr (path : String) : fs'.place path = fs.place path := by
  unfold Files.place
  rw [follow_congr h]

theorem read_congr (path : String) : fs'.read path = fs.read path := by
  unfold read
  simp only [h, place_congr h]

end Congr

/-- What stands where does not depend on the order in which it was put there. -/
theorem IsTree.entry?_eq_of_perm (htree : fs.IsTree) (hperm : fs.entries.Perm fs'.entries)
    (place : List String) : fs'.entry? place = fs.entry? place := by
  unfold entry?
  rw [lookup_eq_of_perm htree.nodup hperm]

/-! ### Below a directory -/

theorem below_eq (fs : Files) (place : List String) :
    fs.below place =
      fs.places.filterMap fun p => if isBelow place p then some (p.drop place.length) else none := by
  rw [places, List.filterMap_map]
  rfl

theorem isBelow_iff {p : List String} : isBelow place p = true ↔
    ∃ name rest, p = place ++ name :: rest ∧ isAbove (place ++ [name]) = false := by
  rw [isBelow, Bool.and_eq_true, Bool.and_eq_true, decide_eq_true_eq, List.isPrefixOf_iff_prefix,
    Bool.not_eq_true', and_assoc]
  constructor
  · rintro ⟨hlength, ⟨parts, rfl⟩, habove⟩
    cases parts with
    | nil => simp at hlength
    | cons name rest =>
      refine ⟨name, rest, rfl, ?_⟩
      rwa [List.take_length_add_append, List.take_succ_cons, List.take_zero] at habove
  · rintro ⟨name, rest, rfl, habove⟩
    refine ⟨by simp, List.prefix_append _ _, ?_⟩
    rwa [List.take_length_add_append, List.take_succ_cons, List.take_zero]

theorem mem_below : parts ∈ fs.below place ↔
    ∃ name rest, parts = name :: rest ∧ place ++ parts ∈ fs.places ∧
      isAbove (place ++ [name]) = false := by
  rw [below_eq, List.mem_filterMap]
  constructor
  · rintro ⟨p, hp, hparts⟩
    split at hparts
    · next hbelow =>
      obtain ⟨name, rest, rfl, habove⟩ := isBelow_iff.1 hbelow
      rw [List.drop_left, Option.some.injEq] at hparts
      subst hparts
      exact ⟨name, rest, rfl, hp, habove⟩
    · cases hparts
  · rintro ⟨name, rest, rfl, hp, habove⟩
    refine ⟨_, hp, ?_⟩
    rw [if_pos (isBelow_iff.2 ⟨name, rest, rfl, habove⟩), List.drop_left]

namespace Descends

theorem ne_nil (h : fs.Descends place parts) : parts ≠ [] := by
  cases h <;> exact List.cons_ne_nil _ _

theorem entry?_eq (h : fs.Descends place parts) : fs.entry? place = some .directory := by
  cases h with
  | entry h => exact h.1
  | further h => exact h.1

end Descends

namespace IsTree

variable (htree : fs.IsTree)

include htree

theorem nodup_below (place : List String) : (fs.below place).Nodup := by
  rw [below_eq]
  refine List.Nodup.filterMap ?_ htree.nodup
  intro p p' parts hp hp'
  rw [Option.mem_def, Option.ite_none_right_eq_some, isBelow_iff] at hp hp'
  obtain ⟨⟨name, rest, rfl, -⟩, hp⟩ := hp
  obtain ⟨⟨name', rest', rfl, -⟩, hp'⟩ := hp'
  rw [List.drop_left] at hp hp'
  rw [Option.some.inj (hp.trans hp'.symm)]

/-- What lies below a directory is what one comes to by going down from it. -/
theorem mem_below_iff (hplace : fs.entry? place = some .directory) :
    parts ∈ fs.below place ↔ fs.Descends place parts := by
  rw [mem_below]
  constructor
  · rintro ⟨name, rest, rfl, hmem, habove⟩
    -- On the way from the top every place is a directory, and none of them lies above the first.
    induction rest generalizing place name with
    | nil => exact .entry ⟨hplace, hmem⟩
    | cons name' rest ih =>
      rw [List.append_cons] at hmem
      have hdirectory := htree.entry?_of_append hmem (List.cons_ne_nil _ _)
      refine .further ⟨hplace, mem_places_of_entry?_eq habove hdirectory⟩ (ih hdirectory name' hmem ?_)
      rw [Bool.eq_false_iff] at habove ⊢
      exact fun h => habove (isAbove_of_append h)
  · intro h
    induction h with
    | @entry place name h => exact ⟨name, [], rfl, h.2, htree.isAbove_eq_false h.2⟩
    | @further place parts name h hparts ih =>
      obtain ⟨name', rest, rfl, hmem, -⟩ := ih hparts.entry?_eq
      rw [← List.append_cons] at hmem
      exact ⟨name, _, rfl, hmem, htree.isAbove_eq_false h.2⟩

theorem hasZero_eq_false_of_follow {start : List String} (hslash : ∀ part ∈ parts, '/' ∉ part.toList)
    (h : fs.follow start parts = .ok place) (hplace : fs.entry? place = some .directory) :
    fs.entry? start = some .directory ∧ ∀ part ∈ parts, hasZero part = false := by
  induction parts generalizing start with
  | nil =>
    cases h
    exact ⟨hplace, List.forall_mem_nil _⟩
  | cons part rest ih =>
    obtain ⟨hpart, hrest⟩ := List.forall_mem_cons.1 hslash
    by_cases hstart : fs.entry? start = some .directory
    · refine ⟨hstart, ?_⟩
      rw [List.forall_mem_cons]
      rw [follow_cons part rest hstart] at h
      split_ifs at h with hskip hdots hlong
      · refine ⟨?_, (ih hrest h).2⟩
        rcases hskip with rfl | rfl <;> decide
      · refine ⟨?_, (ih hrest h).2⟩
        rw [hdots]
        decide
      · obtain ⟨hnext, hzero⟩ := ih hrest h
        have hmem := mem_places_of_entry?_eq (isAbove_concat hdots hpart) hnext
        exact ⟨(htree.isName hmem).hasZero_eq_false, hzero⟩
    · obtain ⟨e, he⟩ := exists_of_ne_directory hstart
      rw [he] at h
      cases h

/-- No path with the character zero leads to a directory. -/
theorem hasZero_eq_false_of_place {path : String} (h : fs.place path = .ok place)
    (hplace : fs.entry? place = some .directory) : hasZero path = false := by
  unfold Files.place at h
  split_ifs at h
  have hslash : ∀ part ∈ Path.pieces path, '/' ∉ part.toList := fun _ => Path.slash_not_mem_of_mem_pieces
  rw [Bool.eq_false_iff, ne_eq, hasZero_iff_exists_piece]
  rintro ⟨part, hpart, hzero⟩
  rw [(htree.hasZero_eq_false_of_follow hslash h hplace).2 part hpart] at hzero
  cases hzero

end IsTree

end SatSearch.Files
