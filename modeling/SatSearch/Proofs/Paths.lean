import SatSearch.Proofs.Files
import SatSearch.Proofs.Lists

/-!
# Normal forms of paths

Normal form drops pieces of a path that lead nowhere. It leads to the same place (`Files.place_text`) and
makes no path longer (`Path.text_sublist`), so a file is read the same by its path and by the normal form of
it (`Files.read_text`). A name joined to a directory is one more part of the normal form
(`Path.ofString_joinPath`).
-/

namespace SatSearch

namespace Path

/-! ### Pieces -/

/-- A piece that normal form keeps. -/
def isPart (p : String) : Bool :=
  p != "" && p != "."

theorem isPart_iff {p : String} : isPart p = true ↔ p ≠ "" ∧ p ≠ "." := by
  simp [isPart]

theorem parts_ofString (s : String) : (ofString s).parts = (pieces s).filter isPart :=
  rfl

theorem pieces_append_slash (s t : String) : pieces (s ++ "/" ++ t) = pieces s ++ pieces t := by
  have hcons : (s ++ "/" ++ t).toList = s.toList ++ '/' :: t.toList := by
    simp [String.toList_append]
  rw [pieces, hcons, List.splitOn_append_cons_self, List.map_append, pieces, pieces]

theorem pieces_intercalate {ps : List String} (hne : ps ≠ []) (h : ∀ p ∈ ps, '/' ∉ p.toList) :
    pieces ("/".intercalate ps) = ps := by
  have hsplit := List.splitOn_intercalate '/' (List.forall_mem_map.2 h) (by simpa using hne)
  rw [pieces, String.toList_intercalate, show "/".toList = ['/'] from rfl, hsplit, List.map_map]
  simp [Function.comp_def]

theorem pieces_eq_singleton {s : String} (h : '/' ∉ s.toList) : pieces s = [s] := by
  simpa using pieces_intercalate (List.cons_ne_nil s []) (List.forall_mem_singleton.2 h)

theorem intercalate_pieces (s : String) : "/".intercalate (pieces s) = s := by
  rw [← String.toList_inj, String.toList_intercalate, pieces, List.map_map]
  simp [Function.comp_def, List.intercalate_splitOn]

theorem slash_not_mem_of_mem_splitOn {l s : List Char} (h : l ∈ s.splitOn '/') : '/' ∉ l := by
  induction s generalizing l with
  | nil =>
    rw [List.splitOn_nil, List.mem_singleton] at h
    subst h
    exact List.not_mem_nil
  | cons c s ih =>
    obtain ⟨first, more, hsplit⟩ := List.exists_cons_of_ne_nil (List.splitOn_ne_nil '/' s)
    rw [hsplit] at ih
    rw [List.splitOn_cons_eq_if_modifyHead, hsplit] at h
    split_ifs at h with hc
    · rcases List.mem_cons.1 h with rfl | h
      · exact List.not_mem_nil
      · exact ih h
    · rw [List.modifyHead_cons] at h
      rcases List.mem_cons.1 h with rfl | h
      · rw [List.mem_cons, not_or]
        exact ⟨fun hslash => hc (beq_iff_eq.2 hslash.symm), ih List.mem_cons_self⟩
      · exact ih (List.mem_cons_of_mem _ h)

theorem slash_not_mem_of_mem_pieces {s p : String} (h : p ∈ pieces s) : '/' ∉ p.toList := by
  obtain ⟨l, hl, rfl⟩ := List.mem_map.1 h
  rw [String.toList_ofList]
  exact slash_not_mem_of_mem_splitOn hl

theorem pieces_slashes (k : Nat) (l : List Char) :
    pieces (String.ofList (List.replicate k '/' ++ l)) = List.replicate k "" ++ pieces (String.ofList l) := by
  induction k with
  | zero => rfl
  | succ k ih =>
    have hcons : String.ofList (List.replicate (k + 1) '/' ++ l) =
        "" ++ "/" ++ String.ofList (List.replicate k '/' ++ l) := by
      rw [← String.toList_inj]
      simp [List.replicate_succ]
    rw [hcons, pieces_append_slash, ih]
    rfl

theorem filter_isPart_slashes (k : Nat) (ps : List String) :
    (List.replicate k "" ++ ps).filter isPart = ps.filter isPart := by
  rw [List.filter_append, List.filter_eq_nil_iff.2, List.nil_append]
  intro p hp
  rw [List.eq_of_mem_replicate hp]
  decide

/-! ### Normal form -/

/-- The number of slashes at the front of a path. -/
def slashes (s : String) : Nat :=
  (s.toList.takeWhile (· == '/')).length

/-- A path behind its slashes at the front. -/
def behind (s : String) : List Char :=
  s.toList.dropWhile (· == '/')

theorem eq_slashes_behind (s : String) : s = String.ofList (List.replicate (slashes s) '/' ++ behind s) := by
  have hslashes : s.toList.takeWhile (· == '/') = List.replicate (slashes s) '/' := by
    rw [List.eq_replicate_iff]
    exact ⟨rfl, fun c hc => by simpa using List.mem_takeWhile_imp hc⟩
  rw [← hslashes, behind, List.takeWhile_append_dropWhile, String.ofList_toList]

theorem head?_behind (s : String) : (behind s).head? ≠ some '/' := by
  intro h
  have := List.head?_dropWhile_not (· == '/') s.toList
  rw [← behind, h] at this
  simp at this

/-- The number of slashes that normal form keeps of those at the front. -/
def rootSlashes (k : Nat) : Nat :=
  if k = 0 then 0 else if k = 2 then 2 else 1

theorem rootSlashes_le (k : Nat) : rootSlashes k ≤ k := by
  unfold rootSlashes
  split_ifs <;> omega

theorem rootSlashes_eq_zero_iff {k : Nat} : rootSlashes k = 0 ↔ k = 0 := by
  unfold rootSlashes
  split_ifs <;> simp_all

theorem root_ofString (s : String) :
    (ofString s).root = String.ofList (List.replicate (rootSlashes (slashes s)) '/') := by
  show (if slashes s = 0 then "" else if slashes s = 2 then "//" else "/") = _
  unfold rootSlashes
  split_ifs <;> rfl

theorem parts_ofString_behind (s : String) :
    (ofString s).parts = (pieces (String.ofList (behind s))).filter isPart := by
  rw [parts_ofString]
  conv_lhs => rw [eq_slashes_behind s]
  rw [pieces_slashes, filter_isPart_slashes]

/-- The text of a normal form: some slashes and its parts. -/
theorem text_ofString {s : String} (h : (ofString s).parts ≠ []) :
    (ofString s).text = String.ofList
      (List.replicate (rootSlashes (slashes s)) '/' ++ ("/".intercalate (ofString s).parts).toList) := by
  rw [text, if_neg fun hempty => h hempty.2, root_ofString, ← String.toList_inj]
  simp

theorem slash_not_mem_of_mem_parts {s p : String} (h : p ∈ (ofString s).parts) : '/' ∉ p.toList :=
  slash_not_mem_of_mem_pieces (List.mem_filter.1 h).1

theorem head?_intercalate_parts {s : String} (h : (ofString s).parts ≠ []) :
    ("/".intercalate (ofString s).parts).toList.head? ≠ some '/' := by
  obtain ⟨p, ps, hparts⟩ := List.exists_cons_of_ne_nil h
  have hp : p ∈ (ofString s).parts := hparts ▸ List.mem_cons_self
  have hne : p.toList ≠ [] := by
    simpa using (isPart_iff.1 (List.mem_filter.1 hp).2).1
  obtain ⟨c, t, hcons⟩ := List.exists_cons_of_ne_nil hne
  have hc : '/' ≠ c := by
    have hslash := slash_not_mem_of_mem_parts hp
    rw [hcons, List.mem_cons, not_or] at hslash
    exact hslash.1
  rw [hparts, String.toList_intercalate, List.map_cons, hcons]
  cases ps <;> simp [hc.symm]

theorem pieces_text {s : String} (h : (ofString s).parts ≠ []) :
    pieces (ofString s).text = List.replicate (rootSlashes (slashes s)) "" ++ (ofString s).parts := by
  rw [text_ofString h, pieces_slashes, String.ofList_toList,
    pieces_intercalate h fun p hp => slash_not_mem_of_mem_parts hp]

/-- Normal form makes no path longer. -/
theorem text_sublist {s : String} (h : (ofString s).parts ≠ []) :
    (ofString s).text.toList.Sublist s.toList := by
  have hparts : ("/".intercalate (ofString s).parts).toList.Sublist (behind s) := by
    rw [parts_ofString_behind]
    conv_rhs => rw [← String.toList_ofList (l := behind s), ← intercalate_pieces (String.ofList (behind s))]
    rw [String.toList_intercalate, String.toList_intercalate]
    exact intercalate_sublist (List.filter_sublist.map _)
  have hslashes := List.replicate_sublist_replicate '/' |>.2 (rootSlashes_le (slashes s))
  conv_rhs => rw [eq_slashes_behind s]
  rw [text_ofString h, String.toList_ofList, String.toList_ofList]
  exact hslashes.append hparts

/-! ### Joining a name -/

variable {name : String}

theorem exists_pieces_joinPath (directory : String) (hslash : '/' ∉ name.toList) :
    ∃ front, pieces (joinPath directory name) = front ++ [name] ∧
      front.filter isPart = (ofString directory).parts := by
  unfold joinPath
  split
  · next h =>
    rw [Bool.or_eq_true, String.isEmpty_iff, String.endsWith_char_iff_exists_append] at h
    rcases h with rfl | ⟨t, rfl⟩
    · exact ⟨[], by rw [String.empty_append, pieces_eq_singleton hslash, List.nil_append], rfl⟩
    · refine ⟨pieces t, ?_, ?_⟩
      · rw [show t ++ String.singleton '/' = t ++ "/" from rfl, pieces_append_slash,
          pieces_eq_singleton hslash]
      · rw [parts_ofString, show t ++ String.singleton '/' = t ++ "/" ++ "" by simp, pieces_append_slash,
          List.filter_append]
        exact (List.append_nil _).symm
  · exact ⟨pieces directory, by rw [pieces_append_slash, pieces_eq_singleton hslash], rfl⟩

theorem slashes_append {s t : String} (h : slashes s = s.length → slashes t = 0) :
    slashes (s ++ t) = slashes s := by
  rw [slashes, slashes, String.toList_append, List.takeWhile_append]
  split_ifs with hall
  · rw [List.length_append, hall]
    exact congrArg (s.toList.length + ·) (h hall)
  · rfl

theorem slashes_eq_zero {s : String} (h : s.toList.head? ≠ some '/') : slashes s = 0 := by
  cases hs : s.toList with
  | nil => rw [slashes, hs]; rfl
  | cons c t =>
    have hc : (c == '/') = false := by
      rw [hs, List.head?_cons] at h
      simpa using h
    rw [slashes, hs, List.takeWhile_cons_of_neg (by simp [hc])]
    rfl

theorem endsWith_slash {s : String} (hne : s ≠ "") (h : slashes s = s.length) : s.endsWith '/' = true := by
  have hall : s.toList.takeWhile (· == '/') = s.toList :=
    (List.takeWhile_sublist _).eq_of_length (h.trans String.length_toList.symm)
  obtain hnil | ⟨t, c, hconcat⟩ := s.toList.eq_nil_or_concat'
  · exact absurd (String.toList_eq_nil_iff.1 hnil) hne
  · have hc : c = '/' := by
      have hmem : c ∈ s.toList.takeWhile (· == '/') := by
        rw [hall, hconcat]
        exact List.mem_append_right t List.mem_cons_self
      simpa using List.mem_takeWhile_imp hmem
    rw [String.endsWith_char_iff_exists_append]
    exact ⟨String.ofList t, by rw [← String.toList_inj, hconcat, hc]; simp⟩

theorem slashes_joinPath (directory : String) (hslash : '/' ∉ name.toList) :
    slashes (joinPath directory name) = slashes directory := by
  have hname : slashes name = 0 := slashes_eq_zero fun h => hslash (List.mem_of_mem_head? h)
  unfold joinPath
  split
  · exact slashes_append fun _ => hname
  · next h =>
    rw [String.append_assoc]
    rw [Bool.or_eq_true, not_or, String.isEmpty_iff] at h
    exact slashes_append fun hall => absurd (endsWith_slash h.1 hall) h.2

/-- Joining a name to a directory is one more part of its normal form. -/
theorem ofString_joinPath (directory : String) (hname : isPart name = true)
    (hslash : '/' ∉ name.toList) :
    ofString (joinPath directory name) = (ofString directory).append [name] := by
  obtain ⟨front, hpieces, hfront⟩ := exists_pieces_joinPath directory hslash
  have hroot : (ofString (joinPath directory name)).root = (ofString directory).root := by
    rw [root_ofString, root_ofString, slashes_joinPath directory hslash]
  have hparts : (ofString (joinPath directory name)).parts = (ofString directory).parts ++ [name] := by
    rw [parts_ofString, hpieces, List.filter_append, hfront, List.filter_singleton, hname]
    rfl
  rw [append, ← hroot, ← hparts]

end Path

namespace Files

variable {fs : Files}

/-! ### Places -/

theorem startOf_slashes (k : Nat) {l : List Char} (h : l.head? ≠ some '/') :
    startOf (String.ofList (List.replicate k '/' ++ l)) = if k = 0 then [] else root := by
  have hstart : (String.ofList (List.replicate k '/' ++ l)).startsWith "/" = true ↔ k ≠ 0 := by
    rw [String.startsWith_string_iff, String.toList_ofList]
    cases k with
    | zero =>
      cases l with
      | nil => decide
      | cons c l => simpa [List.cons_prefix_cons, eq_comm] using h
    | succ k => simp [List.replicate_succ, List.cons_prefix_cons]
  rw [startOf]
  split_ifs <;> simp_all

theorem exists_of_ne_directory {start : List String} (h : fs.entry? start ≠ some .directory) :
    ∃ e, ∀ part rest, fs.follow start (part :: rest) = .error e := by
  cases hstart : fs.entry? start with
  | none => exact ⟨.notFound, fun part rest => by rw [follow, hstart]⟩
  | some e =>
    cases e with
    | file bytes => exact ⟨.notADirectory, fun part rest => by rw [follow, hstart]⟩
    | directory => exact absurd hstart h

theorem follow_cons {start : List String} (part : String) (rest : List String)
    (h : fs.entry? start = some .directory) :
    fs.follow start (part :: rest) =
      if part = "" ∨ part = "." then fs.follow start rest
      else if part = ".." then fs.follow (stepUp start) rest
      else if part.utf8ByteSize > nameLimit then .error .nameTooLong
      else fs.follow (start ++ [part]) rest := by
  rw [follow, h]

/-- Every piece asks for a directory to start from. What a dropped piece asks for, the next piece asks for as
well. -/
theorem follow_filter_isPart {start : List String} {parts : List String} {last : String} :
    fs.follow start (parts.filter Path.isPart ++ [last]) = fs.follow start (parts ++ [last]) := by
  induction parts generalizing start with
  | nil => rfl
  | cons part parts ih =>
    by_cases hstart : fs.entry? start = some .directory
    · rw [List.cons_append, follow_cons part _ hstart]
      by_cases hpart : Path.isPart part = true
      · have hne := Path.isPart_iff.1 hpart
        rw [List.filter_cons_of_pos hpart, List.cons_append, follow_cons part _ hstart,
          if_neg (not_or.2 hne), if_neg (not_or.2 hne), ih, ih]
      · have hor : part = "" ∨ part = "." := by
          by_contra hor
          exact hpart (Path.isPart_iff.2 (not_or.1 hor))
        rw [List.filter_cons_of_neg hpart, if_pos hor, ih]
    · obtain ⟨e, he⟩ := exists_of_ne_directory hstart
      obtain ⟨first, rest, hcons⟩ := List.exists_cons_of_ne_nil (List.append_ne_nil_of_right_ne_nil
        ((part :: parts).filter Path.isPart) (List.cons_ne_nil last []))
      rw [hcons, he, List.cons_append, he]

section Text

variable {s : String} {front : List String} {last : String} (hpieces : Path.pieces s = front ++ [last])
  (hlast : Path.isPart last = true)

include hpieces hlast

theorem parts_eq : (Path.ofString s).parts = front.filter Path.isPart ++ [last] := by
  rw [Path.parts_ofString, hpieces, List.filter_append, List.filter_singleton, hlast]
  rfl

theorem parts_ne_nil : (Path.ofString s).parts ≠ [] := by
  rw [parts_eq hpieces hlast]
  exact List.append_ne_nil_of_right_ne_nil _ (List.cons_ne_nil _ _)

theorem startOf_text : startOf (Path.ofString s).text = startOf s := by
  have hne := parts_ne_nil hpieces hlast
  rw [Path.text_ofString hne, startOf_slashes _ (Path.head?_intercalate_parts hne)]
  conv_rhs => rw [Path.eq_slashes_behind s, startOf_slashes _ (Path.head?_behind s)]
  simp only [Path.rootSlashes_eq_zero_iff]

theorem isTooLong_text (hlong : isTooLong s = false) : isTooLong (Path.ofString s).text = false := by
  have hle := String.utf8Len_le_of_sublist (Path.text_sublist (parts_ne_nil hpieces hlast))
  rw [← String.utf8ByteSize_ofList, ← String.utf8ByteSize_ofList, String.ofList_toList,
    String.ofList_toList] at hle
  rw [isTooLong, decide_eq_false_iff_not] at hlong ⊢
  omega

theorem hasZero_text (hzero : hasZero s = false) : hasZero (Path.ofString s).text = false := by
  rw [hasZero, Bool.eq_false_iff, ne_eq, List.contains_iff_mem] at hzero ⊢
  exact fun hmem => hzero ((Path.text_sublist (parts_ne_nil hpieces hlast)).subset hmem)

theorem place_eq_follow (hlong : isTooLong s = false) :
    fs.place s = fs.follow (startOf s) (front.filter Path.isPart ++ [last]) := by
  have hne : s ≠ "" := by
    rintro rfl
    have hparts := parts_ne_nil hpieces hlast
    exact hparts (by decide)
  rw [place, if_neg hne, hlong, if_neg Bool.false_ne_true, hpieces, follow_filter_isPart]

/-- Normal form leads to the same place. -/
theorem place_text (hlong : isTooLong s = false) : fs.place (Path.ofString s).text = fs.place s := by
  have hpieces' : Path.pieces (Path.ofString s).text =
      List.replicate (Path.rootSlashes (Path.slashes s)) "" ++ front.filter Path.isPart ++ [last] := by
    rw [Path.pieces_text (parts_ne_nil hpieces hlast), parts_eq hpieces hlast, List.append_assoc]
  rw [place_eq_follow hpieces' hlast (isTooLong_text hpieces hlast hlong),
    place_eq_follow hpieces hlast hlong, startOf_text hpieces hlast, Path.filter_isPart_slashes,
    List.filter_filter]
  simp only [Bool.and_self]

/-- A file is read the same by its path and by the normal form of it. -/
theorem read_text {bytes : List UInt8} (h : fs.read s = .ok bytes) :
    fs.read (Path.ofString s).text = .ok bytes := by
  obtain ⟨hzero, hlong, place, hplace, hentry⟩ := read_eq_ok_iff.1 h
  exact read_eq_ok_iff.2 ⟨hasZero_text hpieces hlast hzero, isTooLong_text hpieces hlast hlong, place,
    (place_text hpieces hlast hlong).trans hplace, hentry⟩

end Text

/-! ### Relative paths -/

theorem place_relative {s : String} (hne : s ≠ "") (hlong : isTooLong s = false)
    (hhead : s.toList.head? ≠ some '/') : fs.place s = fs.follow [] (Path.pieces s) := by
  have hstart : startOf s = [] := by
    have := startOf_slashes 0 hhead
    rwa [List.replicate_zero, List.nil_append, String.ofList_toList, if_pos rfl] at this
  rw [place, if_neg hne, hlong, if_neg Bool.false_ne_true, hstart]

theorem endsWith_iff {s ending : String} : s.endsWith ending = true ↔ ending.toList <:+ s.toList := by
  rw [String.endsWith_eq_endsWith_toSlice, String.Slice.endsWith_string_iff, String.copy_toSlice]

theorem endsWith_slash_iff {s : String} : s.endsWith "/" = true ↔ ['/'] <:+ s.toList :=
  endsWith_iff

theorem place_name {name : String} (hname : Path.isPart name = true) (hslash : '/' ∉ name.toList)
    (hdots : name ≠ "..") (hshort : name.utf8ByteSize ≤ nameLimit) : fs.place name = .ok [name] := by
  have hpart := Path.isPart_iff.1 hname
  have hlong : isTooLong name = false := by
    rw [isTooLong, decide_eq_false_iff_not, Nat.not_le]
    exact hshort.trans_lt (by decide)
  have hroot : fs.entry? [] = some .directory := rfl
  rw [place_relative hpart.1 hlong fun h => hslash (List.mem_of_mem_head? h),
    Path.pieces_eq_singleton hslash, follow_cons name [] hroot, if_neg (not_or.2 hpart), if_neg hdots,
    if_neg (Nat.not_lt.2 hshort)]
  rfl

/-- A file can be written under any name that does not name a directory. -/
theorem write_name {name : String} (bytes : List UInt8) (hname : Path.isPart name = true)
    (hslash : '/' ∉ name.toList) (hdots : name ≠ "..") (hzero : hasZero name = false)
    (hshort : name.utf8ByteSize ≤ nameLimit) (hdirectory : fs.entry? [name] ≠ some .directory) :
    fs.write name bytes = .ok (fs.put [name] (.file bytes)) := by
  have hlong : isTooLong name = false := by
    rw [isTooLong, decide_eq_false_iff_not, Nat.not_le]
    exact hshort.trans_lt (by decide)
  have hend : name.endsWith "/" = false := by
    rw [Bool.eq_false_iff, ne_eq, endsWith_slash_iff]
    exact fun h => hslash (h.subset List.mem_cons_self)
  exact write_eq_ok_iff.2 ⟨hzero, hlong, hend, [name], place_name hname hslash hdots hshort, hdirectory, rfl⟩

end Files

end SatSearch
