import ScriptBundle.Proofs.Document.Outside

/-!
# The Header

The header is read line by line by a host that looks for the two marker lines. A key or a text that
fits a line holds no marker, and none comes up where they are joined: the marker holds neither the
at sign in front of a key nor a space, and behind every key there is a space.

The host reads the fields of a script back from the lines in between, one from each of them: behind
the at sign the key, then spaces, then the text. The column of keys is filled up with spaces and
spaces at the end of a line are left out, but no text is lost by that if keys hold no space and
texts neither start nor end with one.

## Main definitions

* `headerPair?`: the key and the text that a line of the header stands for.

## Main statements

* `lines_joinLines`: lines that are joined and split again;
* `not_infix_headerLine`: a line of the header holds no marker;
* `header_contained`: the lines of a header;
* `headerLine_of_text`, `headerLine_of_empty`: how a line is written;
* `headerPairs_header`: the lines of a header stand for the keys and texts that it was written from.
-/

namespace ScriptBundle

/-! ### Lines -/

/-- The lines of a text are what it is split into at line feeds. -/
theorem lines_eq_splitOn (s : Text) : Text.lines s = s.splitOn '\n' := by
  induction s with
  | nil => rfl
  | cons c s ih =>
    have hne := Text.lines_ne_nil s
    rw [Text.lines, List.splitOn, List.splitOnP_cons_eq_if_modifyHead, ← List.splitOn, ← ih]
    cases hlines : Text.lines s with
    | nil => exact absurd hlines hne
    | cons line others => simp

/-- Lines that are joined and split again are the same. -/
theorem lines_joinLines {lines : List Text} (h : ∀ line ∈ lines, '\n' ∉ line) (hne : lines ≠ []) :
    Text.lines (Text.joinLines lines) = lines := by
  rw [lines_eq_splitOn, Text.joinLines, List.splitOn_intercalate '\n' h hne]

/-! ### Markers -/

/-- What does not hold a character stands on one side of it. -/
theorem infix_of_around {front behind inside : Text} {c : Char} (hc : c ∉ inside)
    (h : inside <:+: front ++ c :: behind) : inside <:+: front ∨ inside <:+: behind := by
  obtain ⟨before, after, h⟩ := h
  rcases List.append_eq_append_iff.mp h with ⟨middle, rfl, -⟩ | ⟨middle, hmiddle, hbehind⟩
  · exact .inl ⟨before, middle, rfl⟩
  cases middle with
  | nil => exact .inl ⟨before, [], by simpa using hmiddle⟩
  | cons d middle =>
    obtain ⟨rfl, rfl⟩ : c = d ∧ behind = middle ++ after := by simpa using hbehind
    -- The character ends in front of `inside`, as it is not in there.
    rcases List.append_eq_append_iff.mp hmiddle with ⟨part, -, rfl⟩ | ⟨part, -, hpart⟩
    · exact absurd (List.mem_append_right _ List.mem_cons_self) hc
    · cases part with
      | nil =>
        obtain rfl : c :: middle = inside := hpart
        exact absurd List.mem_cons_self hc
      | cons e part =>
        obtain ⟨-, rfl⟩ : c = e ∧ middle = part ++ inside := by simpa using hpart
        exact .inr ⟨part, after, rfl⟩

variable {key item : String}

/-- A text that fits a line of the header holds no marker. -/
theorem not_infix_of_fits (h : fitsHeaderLine item = true) : ¬headerMarker <:+: item.toList := by
  rw [fitsHeaderLine, Bool.and_eq_true, Bool.not_eq_true', Bool.not_eq_true'] at h
  rintro ⟨before, after, hinfix⟩
  exact ne_true_of_eq_false h.2 (Text.contains_iff.mpr ⟨before, after, hinfix.symm⟩)

/-- A line of the header is a part of its key and its text, with spaces between. -/
theorem headerLine_prefix (key item : String) : ∃ spaces : Nat, headerLine key item <+:
    "// @".toList ++ (key.toList ++ ' ' :: (List.replicate spaces ' ' ++ item.toList)) := by
  refine ⟨keyWidth - ('@' :: key.toList).length, ?_⟩
  have hspaces : ∀ n : Nat, List.replicate n ' ' ++ [' '] = ' ' :: List.replicate n ' ' :=
    fun n => by
    rw [← List.replicate_succ', List.replicate_succ]
  have hwhole : "// ".toList ++ padRight keyWidth ('@' :: key.toList) ++ ' ' :: item.toList =
      "// @".toList ++ (key.toList ++
        (List.replicate (keyWidth - ('@' :: key.toList).length) ' ' ++ [' '] ++ item.toList)) := by
    simp [padRight]
  rw [hspaces, List.cons_append] at hwhole
  rw [← hwhole]
  exact trimEndOf_prefix ' ' _

/-- A line of the header holds no marker. -/
theorem not_infix_headerLine (hkey : fitsHeaderLine key = true)
    (hitem : fitsHeaderLine item = true) :
    ¬headerMarker <:+: headerLine key item := by
  intro hinside
  obtain ⟨spaces, hprefix⟩ := headerLine_prefix key item
  have hbehind := infix_of_not_mem (by decide) (hinside.trans hprefix.isInfix)
  rcases infix_of_around (by decide) hbehind with hinside | hinside
  · exact not_infix_of_fits hkey hinside
  · refine not_infix_of_fits hitem (infix_of_not_mem (fun hmem => ?_) hinside)
    exact absurd (List.eq_of_mem_replicate hmem) (by decide)

/-- A line of the header ends nowhere else. -/
theorem endsHeaderLine_headerLine (hkey : fitsHeaderLine key = true)
    (hitem : fitsHeaderLine item = true) : ∀ c ∈ headerLine key item, endsHeaderLine c = false := by
  intro c hc
  obtain ⟨spaces, hprefix⟩ := headerLine_prefix key item
  have hwhole := hprefix.subset hc
  simp only [List.mem_append, List.mem_cons, List.mem_replicate] at hwhole
  rcases hwhole with hfront | hmem | rfl | ⟨-, rfl⟩ | hmem
  · exact (by simp [endsHeaderLine] : ∀ c ∈ "// @".toList, endsHeaderLine c = false) c hfront
  · exact endsHeaderLine_of_fits hkey c hmem
  · rfl
  · rfl
  · exact endsHeaderLine_of_fits hitem c hmem

/-! ### The header -/

/-- What every **line of a header** is: a comment without a space at its end, in which no line ends
for the host either. -/
structure IsHeaderLine (line : Text) : Prop where
  comment : ['/', '/'] <+: line
  trimmed : line.getLast? ≠ some ' '
  unbroken : ∀ c ∈ line, endsHeaderLine c = false

theorem isHeaderLine_headerOpen : IsHeaderLine headerOpen := by
  have hall : headerOpen.all (!endsHeaderLine ·) = true := by cbv
  exact ⟨⟨_, rfl⟩, by decide, fun c hc => by simpa using List.all_eq_true.mp hall c hc⟩

theorem isHeaderLine_headerClose : IsHeaderLine headerClose := by
  have hall : headerClose.all (!endsHeaderLine ·) = true := by cbv
  exact ⟨⟨_, rfl⟩, by decide, fun c hc => by simpa using List.all_eq_true.mp hall c hc⟩

theorem isHeaderLine_headerLine (hkey : fitsHeaderLine key = true)
    (hitem : fitsHeaderLine item = true) : IsHeaderLine (headerLine key item) :=
  ⟨headerLine_eq key item ▸ ⟨_, rfl⟩, getLast?_trimEndOf ' ' _,
    endsHeaderLine_headerLine hkey hitem⟩

/-- Every line that a safe header is joined from is such a line. -/
theorem isHeaderLine_of_mem {m : Metadata} (h : m.unsafeField? = none) {line : Text}
    (hline : line ∈ headerOpen :: (m.lines.map fun line => headerLine line.1 line.2) ++
      [headerClose]) : IsHeaderLine line := by
  simp only [List.cons_append, List.mem_cons, List.mem_append, List.mem_map, List.not_mem_nil,
    or_false] at hline
  rcases hline with rfl | ⟨⟨key, item⟩, hmem, rfl⟩ | rfl
  · exact isHeaderLine_headerOpen
  · obtain ⟨hkey, hitem⟩ := fits_of_mem_lines h hmem
    exact isHeaderLine_headerLine hkey hitem
  · exact isHeaderLine_headerClose

/-- The lines of a safe header are those of its keys and texts between the two marker lines. -/
theorem lines_header {m : Metadata} (h : m.unsafeField? = none) :
    Text.lines m.header =
      headerOpen :: (m.lines.map fun line => headerLine line.1 line.2) ++ [headerClose] := by
  rw [m.header_eq_joinLines]
  refine lines_joinLines (fun line hline hmem => ?_) (by simp)
  exact absurd ((isHeaderLine_of_mem h hline).unbroken '\n' hmem) (by decide)

/-- The header of safe metadata has a line for every text of a value, between the two marker lines.
Neither marker line occurs on the way, and a reader of code finds nothing. -/
theorem header_contained {m : Metadata} (h : m.unsafeField? = none) :
    ∃ middle, Text.lines m.header = headerOpen :: middle ++ [headerClose] ∧
      middle.length = (m.fields.map fun field => field.2.items.length).sum ∧
      (∀ line ∈ middle, ¬headerOpen <:+: line ∧ ¬headerClose <:+: line) ∧
      (∀ line ∈ Text.lines m.header, IsHeaderLine line) ∧
      tokenize m.header = [] := by
  have hheader := lines_header h
  refine ⟨_, hheader, ?_, ?_, fun line hline => isHeaderLine_of_mem h (hheader ▸ hline), ?_⟩
  · rw [List.length_map, Metadata.lines, List.length_flatMap]
    simp only [List.length_map]
  · intro line hline
    obtain ⟨⟨key, item⟩, hmem, rfl⟩ := List.mem_map.mp hline
    obtain ⟨hkey, hitem⟩ := fits_of_mem_lines h hmem
    have hnone := not_infix_headerLine hkey hitem
    have hopen : headerMarker <:+: headerOpen := ⟨"// ==".toList, [], by decide⟩
    have hclose : headerMarker <:+: headerClose := ⟨"// ==/".toList, [], by decide⟩
    exact ⟨fun hinside => hnone (hopen.trans hinside), fun hinside => hnone (hclose.trans hinside)⟩
  · have hnone : lexemes .initial m.header = [] :=
      List.map_eq_nil_iff.mp (reads_header h .initial).contents
    obtain ⟨rest, hrest⟩ : ∃ rest, m.header = '/' :: rest := by
      rw [m.header_eq_joinLines, List.cons_append, joinLines_cons]
      exact ⟨_, rfl⟩
    have hafter : afterHashbang m.header = m.header := by
      rw [hrest]
      rfl
    rw [tokenize, hafter, hnone]
    rfl

/-- A field with a list of texts, an empty one among them, and a field without any. -/
def listedMetadata : Metadata :=
  ⟨[("name", .scalar "A // B"), ("match", .list ["https://a.b/*", ""]), ("grant", .list [])]⟩

/-- The header of three texts has five lines. -/
theorem header_contained_of_listed :
    (Text.lines listedMetadata.header).length = 5 ∧ tokenize listedMetadata.header = [] := by
  obtain ⟨middle, hlines, hlength, -, -, hnone⟩ :=
    header_contained (m := listedMetadata) (by decide)
  refine ⟨?_, hnone⟩
  rw [hlines, List.length_append, List.length_cons, hlength]
  rfl

/-! ### Fields of a line -/

/-- The key and the text that a line of the header stands for. The key goes up to the first space or
to the end of the line, and the text starts behind the spaces. -/
def headerPair? : Text → Option (String × String)
  | '/' :: '/' :: ' ' :: '@' :: rest =>
    some (String.ofList (rest.takeWhile (· ≠ ' ')),
      String.ofList ((rest.dropWhile (· ≠ ' ')).dropWhile (· = ' ')))
  | _ => none

/-- A line of the header before the spaces at its end are left out. -/
theorem headerLine_eq_trimEndOf (key item : String) : ∃ spaces : Nat, headerLine key item =
    Text.trimEndOf ' ' ("// @".toList ++ key.toList ++ List.replicate (spaces + 1) ' ' ++
      item.toList) := by
  refine ⟨keyWidth - ('@' :: key.toList).length, congrArg (Text.trimEndOf ' ') ?_⟩
  simp [headerEntry, padRight, List.replicate_succ']

/-- A key and a text stand on a line with one or more spaces between them. -/
theorem headerLine_of_text {item : String} (hne : item ≠ "")
    (hend : item.toList.getLast? ≠ some ' ') (key : String) : ∃ spaces : Nat, headerLine key item =
      "// @".toList ++ key.toList ++ List.replicate (spaces + 1) ' ' ++ item.toList := by
  obtain ⟨spaces, hline⟩ := headerLine_eq_trimEndOf key item
  refine ⟨spaces, hline.trans (trimEndOf_eq_self ?_)⟩
  have hitem : item.toList ≠ [] := by simpa using hne
  rwa [List.getLast?_append_of_ne_nil _ hitem]

/-- Without a text the line ends with the key. -/
theorem headerLine_of_empty {key : String} (hkey : ' ' ∉ key.toList) :
    headerLine key "" = "// @".toList ++ key.toList := by
  obtain ⟨spaces, hline⟩ := headerLine_eq_trimEndOf key ""
  rw [hline, String.toList_empty, List.append_nil, trimEndOf_append_replicate]
  refine trimEndOf_eq_self fun hlast => ?_
  rw [List.getLast?_append] at hlast
  cases hkeyLast : key.toList.getLast? with
  | none => simp [hkeyLast] at hlast
  | some c =>
    obtain rfl : c = ' ' := by simpa [hkeyLast] using hlast
    exact hkey (List.mem_of_getLast? hkeyLast)

/-- Behind the mark the key comes first, and then the text. -/
theorem headerPair?_append (rest : Text) : headerPair? ("// @".toList ++ rest) =
    some (String.ofList (rest.takeWhile (· ≠ ' ')),
      String.ofList ((rest.dropWhile (· ≠ ' ')).dropWhile (· = ' '))) := rfl

/-- A line is read back. -/
theorem headerPair?_headerLine {key item : String} (hkey : ' ' ∉ key.toList)
    (hstart : item.toList.head? ≠ some ' ') (hend : item.toList.getLast? ≠ some ' ') :
    headerPair? (headerLine key item) = some (key, item) := by
  have hword : ∀ c ∈ key.toList, decide (c ≠ ' ') = true := fun c hc =>
    decide_eq_true fun hspace => hkey (hspace ▸ hc)
  by_cases hitem : item = ""
  · subst hitem
    rw [headerLine_of_empty hkey, headerPair?_append, List.takeWhile_eq_self_iff.mpr hword,
      List.dropWhile_eq_nil_iff.mpr hword]
    simp
  · obtain ⟨spaces, hline⟩ := headerLine_of_text hitem hend key
    have hspaces : ∀ c ∈ List.replicate spaces ' ', decide (c = ' ') = true := fun c hc =>
      decide_eq_true (List.eq_of_mem_replicate hc)
    have htext : item.toList.dropWhile (· = ' ') = item.toList := by
      rw [List.dropWhile_eq_self_iff]
      intro hpos hfirst
      rw [List.head?_eq_getElem?, List.getElem?_eq_getElem hpos] at hstart
      exact hstart (congrArg some (of_decide_eq_true hfirst))
    rw [hline, List.append_assoc, List.append_assoc, headerPair?_append, List.replicate_succ,
      List.cons_append, List.takeWhile_append_of_pos hword, List.dropWhile_append_of_pos hword]
    rw [List.takeWhile_cons_of_neg (by decide), List.dropWhile_cons_of_neg (by decide),
      List.dropWhile_cons_of_pos (by decide), List.dropWhile_append_of_pos hspaces, htext]
    simp

/-! ### Fields of the header -/

/-- **The fields of a header are read back.** -/
theorem headerPairs_header {m : Metadata} (hsafe : m.unsafeField? = none)
    (hkeys : ∀ key ∈ m.keys, ' ' ∉ key.toList)
    (hitems : ∀ line ∈ m.lines,
      line.2.toList.head? ≠ some ' ' ∧ line.2.toList.getLast? ≠ some ' ') :
    (Text.lines m.header).tail.dropLast.map headerPair? = m.lines.map some := by
  rw [lines_header hsafe, List.cons_append, List.tail_cons, List.dropLast_concat, List.map_map]
  refine List.map_congr_left fun line hline => ?_
  obtain ⟨hstart, hend⟩ := hitems line hline
  refine headerPair?_headerLine (hkeys line.1 ?_) hstart hend
  obtain ⟨field, hfield, hvalue⟩ := List.mem_flatMap.mp hline
  obtain ⟨item, -, rfl⟩ := List.mem_map.mp hvalue
  exact List.mem_map_of_mem hfield

/-- A key that is wider than its column, a list with an empty text, and a field without any. -/
def spacedMetadata : Metadata :=
  ⟨[("homepage-address", .scalar "a  b"), ("match", .list ["", "x // y"]), ("grant", .list [])]⟩

/-- Such fields are read back one text at a time. -/
theorem headerPairs_header_of_spaced :
    (Text.lines spacedMetadata.header).tail.dropLast.map headerPair? =
      [some ("homepage-address", "a  b"), some ("match", ""), some ("match", "x // y")] :=
  headerPairs_header (m := spacedMetadata) (by decide) (by decide) (by decide)

end ScriptBundle
