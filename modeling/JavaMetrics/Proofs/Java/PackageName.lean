import JavaMetrics.Java.CompilationUnit
import JavaMetrics.Java.Gap
import JavaMetrics.Proofs.Metrics.NamedTypes
import JavaMetrics.Proofs.Text.Decoding
import JavaMetrics.Proofs.Text.Pieces
import JavaMetrics.Text.IdentifierChar

/-!
# The layout of the package declaration

The name of the package is the text of its node without white space. The grammar allows
white space and comments between the identifiers of the name and the dots, any number of
them, and the text of the node has them all.

`Follows` goes along the identifiers of the node and says what stands between any two of
them. The text of the node is then the identifiers with these gaps in between
(`decode_slice_of_follows`): no byte of a gap is taken for a part of the identifier in
front of it, since what begins a gap is a character of ASCII. Identifiers have no white
space and no slash in them, so taking the white space out leaves the identifiers and,
of every gap, the dot and its comments. The name is the identifiers joined by dots
exactly if there are none (`package_name_of_layout`).
-/

namespace JavaMetrics

/-! ## Characters of identifiers -/

namespace Text

/-- The white space outside of ASCII. -/
def distantBlanks : List Nat :=
  [0x85, 0xA0, 0x1680] ++ List.range' 0x2000 11 ++ [0x2028, 0x2029, 0x202F, 0x205F, 0x3000]

theorem isBlank_cases {c : Char} (h : isBlank c = true) :
    c.toNat ≤ 32 ∨ c.toNat ∈ distantBlanks := by
  simp only [isBlank, Bool.or_eq_true, Bool.and_eq_true, decide_eq_true_eq, beq_iff_eq] at h
  simp only [distantBlanks, List.mem_append, List.mem_cons, List.not_mem_nil, or_false,
    List.mem_range'_1]
  omega

theorem even_rank_distantBlanks : ∀ n ∈ distantBlanks,
    128 ≤ n ∧ identifierStarts.rank n % 2 = 0 ∧ identifierParts.rank n % 2 = 0 := by
  decide +kernel

/-- Can this character stand somewhere in an identifier? -/
def isIdentifierChar (c : Char) : Bool :=
  isIdentifierStart c || isIdentifierPart c

theorem isIdentifierChar_control :
    ∀ n ≤ 32, isIdentifierChar (Char.ofNat n) = false := by
  decide

theorem isBlank_eq_false_of_isIdentifierChar {c : Char} (h : isIdentifierChar c = true) :
    isBlank c = false := by
  by_contra hblank
  rw [Bool.not_eq_false] at hblank
  rcases isBlank_cases hblank with hcontrol | hdistant
  · have hnot := isIdentifierChar_control c.toNat hcontrol
    rw [Char.ofNat_toNat, h] at hnot
    cases hnot
  · obtain ⟨hlow, hstart, hpart⟩ := even_rank_distantBlanks _ hdistant
    have hfar : ¬ c.toNat < 128 := by omega
    simp [isIdentifierChar, isIdentifierStart, isIdentifierPart, hfar, CodePoints.contains,
      hstart, hpart] at h

theorem isIdentifierChar_slash : isIdentifierChar '/' = false := by
  decide

end Text

namespace Java

open Text (isBlank isIdentifierStart isIdentifierPart isIdentifierChar)

/-- Is the text an identifier? -/
def IsIdentifier (cs : List Char) : Prop :=
  ∃ c rest, cs = c :: rest ∧ isIdentifierStart c = true ∧ ∀ d ∈ rest, isIdentifierPart d = true

theorem IsIdentifier.ne_nil {cs : List Char} (h : IsIdentifier cs) : cs ≠ [] := by
  obtain ⟨c, rest, rfl, -, -⟩ := h
  exact List.cons_ne_nil c rest

theorem IsIdentifier.forall_isIdentifierChar {cs : List Char} (h : IsIdentifier cs) :
    ∀ c ∈ cs, isIdentifierChar c = true := by
  obtain ⟨c, rest, rfl, hstart, hparts⟩ := h
  rw [List.forall_mem_cons]
  refine ⟨by simp [Text.isIdentifierChar, hstart], ?_⟩
  intro d hd
  simp [Text.isIdentifierChar, hparts d hd]

theorem IsIdentifier.slash_notMem {cs : List Char} (h : IsIdentifier cs) : '/' ∉ cs := by
  intro hmem
  have hslash := h.forall_isIdentifierChar '/' hmem
  rw [Text.isIdentifierChar_slash] at hslash
  cases hslash

/-! ## What stands between two identifiers -/

/-- White space and comments, any number of them. -/
inductive Filler : List Char → Prop
  | nil : Filler []
  | space {c : Char} {rest : List Char} (hspace : isSpace c = true) (hrest : Filler rest) :
      Filler (c :: rest)
  | line {body rest : List Char} (hbody : '\n' ∉ body) (hrest : Filler rest) :
      Filler ('/' :: '/' :: (body ++ '\n' :: rest))
  | block {body rest : List Char} (hbody : ¬ ['*', '/'] <:+: body) (hrest : Filler rest) :
      Filler ('/' :: '*' :: (body ++ '*' :: '/' :: rest))

/-- What stands between two identifiers of a name: a dot in between white space and comments. -/
def IsGap (cs : List Char) : Prop :=
  ∃ before after, Filler before ∧ Filler after ∧ cs = before ++ '.' :: after

/-- Is there nothing but white space around the dot? -/
def CommentFree (cs : List Char) : Prop :=
  ∀ c ∈ cs, c = '.' ∨ isSpace c = true

theorem isBlank_of_isSpace {c : Char} (h : isSpace c = true) : isBlank c = true := by
  simp only [isSpace, Bool.or_eq_true, Bool.and_eq_true, decide_eq_true_eq, beq_iff_eq] at h
  rcases h with rfl | h
  · decide
  · simp [isBlank, h]

theorem Filler.spaces_or_slash {cs : List Char} (h : Filler cs) :
    (∀ c ∈ cs, isSpace c = true) ∨ '/' ∈ cs := by
  induction h with
  | nil => exact .inl (by simp)
  | space hspace _ ih =>
      rcases ih with hspaces | hslash
      · exact .inl (List.forall_mem_cons.mpr ⟨hspace, hspaces⟩)
      · exact .inr (List.mem_cons_of_mem _ hslash)
  | line | block => exact .inr List.mem_cons_self

/-- A gap cannot go on with a character that has begun before it. -/
theorem IsGap.head_ascii {cs : List Char} (h : IsGap cs) :
    ∃ c rest, cs = c :: rest ∧ c.toNat < 0x80 := by
  obtain ⟨before, after, hbefore, -, rfl⟩ := h
  cases hbefore with
  | nil => exact ⟨'.', after, rfl, by decide⟩
  | @space c rest hspace =>
      refine ⟨c, rest ++ '.' :: after, rfl, ?_⟩
      simp only [isSpace, Bool.or_eq_true, Bool.and_eq_true, decide_eq_true_eq,
        beq_iff_eq] at hspace
      rcases hspace with rfl | hspace
      · decide
      · omega
  | line | block => exact ⟨'/', _, rfl, by decide⟩

/-- The text without its white space. -/
def squeeze (cs : List Char) : List Char :=
  cs.filter fun c => !isBlank c

theorem squeeze_append (front back : List Char) :
    squeeze (front ++ back) = squeeze front ++ squeeze back :=
  List.filter_append ..

theorem squeeze_spaces {cs : List Char} (h : ∀ c ∈ cs, isSpace c = true) : squeeze cs = [] := by
  rw [squeeze, List.filter_eq_nil_iff]
  intro c hc
  simp [isBlank_of_isSpace (h c hc)]

theorem squeeze_identifier {cs : List Char} (h : IsIdentifier cs) : squeeze cs = cs := by
  rw [squeeze, List.filter_eq_self]
  intro c hc
  simp [Text.isBlank_eq_false_of_isIdentifierChar (h.forall_isIdentifierChar c hc)]

/-- Of a gap without comments the dot is left, and of any other one a slash too. -/
theorem IsGap.squeeze {cs : List Char} (h : IsGap cs) :
    (CommentFree cs ∧ squeeze cs = ['.']) ∨ (¬ CommentFree cs ∧ '/' ∈ squeeze cs) := by
  obtain ⟨before, after, hbefore, hafter, rfl⟩ := h
  have hslash : '/' ∈ before ++ '.' :: after → ¬ CommentFree (before ++ '.' :: after) ∧
      '/' ∈ Java.squeeze (before ++ '.' :: after) := by
    intro hmem
    refine ⟨fun hfree => absurd (hfree '/' hmem) (by decide), ?_⟩
    exact List.mem_filter.mpr ⟨hmem, by decide⟩
  rcases hbefore.spaces_or_slash with hspaces | hmem
  · rcases hafter.spaces_or_slash with hspaces' | hmem
    · refine .inl ⟨?_, ?_⟩
      · intro c hc
        rcases List.mem_append.mp hc with hc | hc
        · exact .inr (hspaces c hc)
        · rcases List.mem_cons.mp hc with rfl | hc
          · exact .inl rfl
          · exact .inr (hspaces' c hc)
      · rw [squeeze_append, squeeze_spaces hspaces, List.nil_append, ← List.singleton_append,
          squeeze_append, squeeze_spaces hspaces']
        decide
    · exact .inr (hslash (List.mem_append_right _ (List.mem_cons_of_mem _ hmem)))
  · exact .inr (hslash (List.mem_append_left _ hmem))

/-! ## Names as they are written -/

/-- A name as it is written: an identifier, and further ones with the gaps before them. -/
structure Layout where
  first : String
  /-- Every further identifier, after the gap in front of it. -/
  later : List (String × String)
  isIdentifier_first : IsIdentifier first.toList
  isGap_later : ∀ piece ∈ later, IsGap piece.1.toList
  isIdentifier_later : ∀ piece ∈ later, IsIdentifier piece.2.toList

/-- The characters of some identifiers with the gaps before them. -/
def spellingFrom (later : List (String × String)) : List Char :=
  later.flatMap fun piece => piece.1.toList ++ piece.2.toList

namespace Layout

/-- The identifiers in order. -/
def segments (layout : Layout) : List String :=
  layout.first :: layout.later.map (·.2)

/-- The gaps in order. -/
def gaps (layout : Layout) : List String :=
  layout.later.map (·.1)

/-- The name with nothing but dots between its identifiers. -/
def dotted (layout : Layout) : String :=
  ".".intercalate layout.segments

/-- The characters of the name with its gaps. -/
def spelling (layout : Layout) : List Char :=
  layout.first.toList ++ spellingFrom layout.later

/-- Is there no comment in the name? -/
def CommentFree (layout : Layout) : Prop :=
  ∀ gap ∈ layout.gaps, Java.CommentFree gap.toList

theorem intercalate_dot (first : List Char) (later : List (String × String)) :
    ['.'].intercalate (first :: later.map (·.2.toList)) =
      first ++ later.flatMap fun piece => '.' :: piece.2.toList := by
  induction later generalizing first with
  | nil => simp
  | cons piece later ih =>
      rw [List.map_cons, List.intercalate_cons_cons, ih]
      simp

theorem toList_dotted (layout : Layout) :
    layout.dotted.toList =
      layout.first.toList ++ layout.later.flatMap fun piece => '.' :: piece.2.toList := by
  rw [dotted, String.toList_intercalate, segments, List.map_cons, List.map_map]
  exact intercalate_dot _ _

theorem squeeze_spelling (layout : Layout) :
    squeeze layout.spelling =
      layout.first.toList ++ layout.later.flatMap fun piece =>
        squeeze piece.1.toList ++ piece.2.toList := by
  rw [spelling, squeeze_append, squeeze_identifier layout.isIdentifier_first, spellingFrom,
    squeeze, List.filter_flatMap]
  congr 1
  refine List.flatMap_congr fun piece hpiece => ?_
  rw [← squeeze, squeeze_append, squeeze_identifier (layout.isIdentifier_later piece hpiece)]

theorem slash_notMem_dotted (layout : Layout) : '/' ∉ layout.dotted.toList := by
  rw [toList_dotted, List.mem_append, List.mem_flatMap, not_or, not_exists]
  refine ⟨layout.isIdentifier_first.slash_notMem, ?_⟩
  rintro piece ⟨hpiece, hmem⟩
  rcases List.mem_cons.mp hmem with hdot | hmem
  · exact absurd hdot (by decide)
  · exact (layout.isIdentifier_later piece hpiece).slash_notMem hmem

/-- The name without its white space is the dotted one exactly if it has no comment. -/
theorem squeeze_spelling_eq_iff (layout : Layout) :
    squeeze layout.spelling = layout.dotted.toList ↔ layout.CommentFree := by
  rw [CommentFree, gaps, List.forall_mem_map]
  constructor
  · intro heq piece hpiece
    rcases (layout.isGap_later piece hpiece).squeeze with ⟨hfree, -⟩ | ⟨-, hslash⟩
    · exact hfree
    · refine absurd (?_ : '/' ∈ layout.dotted.toList) layout.slash_notMem_dotted
      rw [← heq, squeeze_spelling]
      exact List.mem_append_right _
        (List.mem_flatMap.mpr ⟨piece, hpiece, List.mem_append_left _ hslash⟩)
  · intro hfree
    rw [squeeze_spelling, toList_dotted]
    congr 1
    refine List.flatMap_congr fun piece hpiece => ?_
    rcases (layout.isGap_later piece hpiece).squeeze with ⟨-, hdot⟩ | ⟨hcomment, -⟩
    · rw [hdot, List.singleton_append]
    · exact absurd (hfree piece hpiece) hcomment

end Layout

/-! ## The text of the node -/

/-- The nodes of the identifiers in a name. -/
def identifierLeaves (name : Node) : List Node :=
  name.descendants.filter fun node => node.kind == "identifier" && node.children.isEmpty

/-- What stands behind `leaf` up to the offset `stop`: some leaves, each with an identifier and
after a gap. -/
inductive Follows (code : List UInt8) (stop : Nat) :
    Node → List Node → List (String × String) → Prop
  | nil {leaf : Node} (hstop : leaf.stop = stop) : Follows code stop leaf [] []
  | cons {leaf next : Node} {rest : List Node} {gap segment : String}
      {later : List (String × String)}
      (hbetween : slice code leaf.stop next.start = Text.Utf8.encode gap.toList)
      (hreads : next.text code = segment)
      (hrest : Follows code stop next rest later) :
      Follows code stop leaf (next :: rest) ((gap, segment) :: later)

/-- The node is written in a certain way: it reaches from its first identifier to its last one, and
these and the gaps between them are those of the layout. -/
structure Spelled (code : List UInt8) (name : Node) (layout : Layout) : Prop where
  /-- The node can give its text. -/
  readable : name.textless = false
  leaves : ∃ leaf rest, identifierLeaves name = leaf :: rest ∧ name.start = leaf.start ∧
    leaf.text code = layout.first ∧ Follows code name.stop leaf rest layout.later

theorem slice_append (code : List UInt8) {start mid stop : Nat} (hleft : start ≤ mid)
    (hright : mid ≤ stop) :
    slice code start stop = slice code start mid ++ slice code mid stop := by
  have hmid : start + (mid - start) = mid := by omega
  rw [slice, slice, slice, show stop - start = (mid - start) + (stop - mid) by omega,
    List.take_add, List.drop_drop, hmid]

theorem lt_of_decode_slice {code : List UInt8} {start stop : Nat}
    (h : Text.Utf8.decode (slice code start stop) ≠ []) : start < stop := by
  by_contra hge
  rw [slice, Nat.sub_eq_zero_of_le (by omega), List.take_zero] at h
  exact h rfl

/-- A node that reads something covers it. -/
theorem decode_of_text_ne_nil {code : List UInt8} {node : Node}
    (h : (node.text code).toList ≠ []) :
    Text.Utf8.decode (slice code node.start node.stop) = (node.text code).toList ∧
      node.start < node.stop := by
  rw [Node.text] at h ⊢
  split at h
  · exact absurd rfl h
  · next hreadable =>
      rw [String.toList_ofList] at h
      rw [if_neg hreadable, String.toList_ofList]
      exact ⟨rfl, lt_of_decode_slice h⟩

/-- From one identifier up to the end of the name the source has the identifiers and the gaps. -/
theorem decode_slice_of_follows {code : List UInt8} {stop : Nat} {leaf : Node} {rest : List Node}
    {later : List (String × String)} (h : Follows code stop leaf rest later)
    (hleaf : IsIdentifier (leaf.text code).toList)
    (hgaps : ∀ piece ∈ later, IsGap piece.1.toList)
    (hsegments : ∀ piece ∈ later, IsIdentifier piece.2.toList) :
    leaf.stop ≤ stop ∧
      Text.Utf8.decode (slice code leaf.start stop) =
        (leaf.text code).toList ++ spellingFrom later := by
  induction h with
  | @nil leaf hstop =>
      obtain ⟨hread, -⟩ := decode_of_text_ne_nil hleaf.ne_nil
      rw [← hstop, hread, spellingFrom, List.flatMap_nil, List.append_nil]
      exact ⟨Nat.le_refl _, rfl⟩
  | @cons leaf next rest gap segment later hbetween hreads _ ih =>
      rw [List.forall_mem_cons] at hgaps hsegments
      obtain ⟨c, cs, hgap, hascii⟩ := hgaps.1.head_ascii
      obtain ⟨hread, hcovers⟩ := decode_of_text_ne_nil hleaf.ne_nil
      have hnext : IsIdentifier (next.text code).toList := hreads ▸ hsegments.1
      obtain ⟨-, hcovers'⟩ := decode_of_text_ne_nil hnext.ne_nil
      obtain ⟨hstop, hrest⟩ := ih hnext hgaps.2 hsegments.2
      have hapart : leaf.stop < next.start := by
        have hsome : Text.Utf8.decode (slice code leaf.stop next.start) ≠ [] := by
          have hback := Text.Utf8.decode_encode_append gap.toList []
          rw [List.append_nil] at hback
          rw [hbetween, hback, hgap]
          exact List.append_ne_nil_of_left_ne_nil (List.cons_ne_nil c cs) _
        exact lt_of_decode_slice hsome
      refine ⟨by omega, ?_⟩
      -- the bytes of the leaf are read by themselves, since `c` ends whatever they have begun
      rw [slice_append code (Nat.le_of_lt hcovers) (by omega : leaf.stop ≤ stop),
        slice_append code (Nat.le_of_lt hapart) (by omega : next.start ≤ stop), hbetween, hgap,
        Text.Utf8.decode_append_encode hascii, hread, hrest, ← hgap, hreads, spellingFrom,
        spellingFrom, List.flatMap_cons, List.append_assoc]

theorem Spelled.toList_text {code : List UInt8} {name : Node} {layout : Layout}
    (h : Spelled code name layout) : (name.text code).toList = layout.spelling := by
  obtain ⟨leaf, rest, -, hstart, hfirst, hfollows⟩ := h.leaves
  obtain ⟨-, hread⟩ := decode_slice_of_follows hfollows (hfirst ▸ layout.isIdentifier_first)
    layout.isGap_later layout.isIdentifier_later
  rw [Node.text, h.readable, if_neg (by simp), String.toList_ofList, hstart, hread, hfirst]
  rfl

/-! ## The name of the package -/

/-- The node is the name in the first declaration of a package that has one. -/
def NamesPackage (unit : CompilationUnit) (name : Node) : Prop :=
  ∃ before declaration after,
    unit.root.namedChildren = before ++ declaration :: after ∧
    declaration.kind = "package_declaration" ∧
    CompilationUnit.packageNode? declaration = some name ∧
    ∀ node ∈ before, node.kind = "package_declaration" →
      CompilationUnit.packageNode? node = none

theorem NamesPackage.packageName_eq {unit : CompilationUnit} {name : Node}
    (h : NamesPackage unit name) :
    unit.packageName = String.ofList (squeeze (name.text unit.code).toList) := by
  obtain ⟨before, declaration, after, hchildren, hkind, hname, hbefore⟩ := h
  have hfound : (unit.root.namedChildren.filter (·.kind == "package_declaration")).findSome?
      CompilationUnit.packageNode? = some name := by
    have hnone : (before.filter (·.kind == "package_declaration")).findSome?
        CompilationUnit.packageNode? = none := by
      rw [List.findSome?_eq_none_iff]
      intro node hnode
      obtain ⟨hmem, hpackage⟩ := List.mem_filter.mp hnode
      exact hbefore node hmem (beq_iff_eq.mp hpackage)
    rw [hchildren, List.filter_append, List.filter_cons_of_pos (by simp [hkind]),
      List.findSome?_append, hnone, Option.none_or, List.findSome?_cons, hname]
  rw [CompilationUnit.packageName, hfound]
  dsimp only
  rw [Text.words, Text.flatten_runsFrom]
  rfl

theorem packageName_eq_squeeze {unit : CompilationUnit} {name : Node} {layout : Layout}
    (hname : NamesPackage unit name) (hspelled : Spelled unit.code name layout) :
    unit.packageName = String.ofList (squeeze layout.spelling) := by
  rw [hname.packageName_eq, hspelled.toList_text]

/-- Two names of one type in packages with a name are equal only if the packages are. -/
theorem qualifiedName_left_inj {package package' simple : String} {outer : Option String}
    (hpackage : package ≠ "") (hpackage' : package' ≠ "") :
    qualifiedName package simple outer = qualifiedName package' simple outer ↔
      package = package' := by
  simp [qualifiedName, hpackage, hpackage']

/-- What the layout of the package declaration does to names. -/
structure LayoutAccount (unit : CompilationUnit) (layout : Layout) : Prop where
  /-- The name of the package is the written one without its white space. -/
  squeezed : unit.packageName = String.ofList (squeeze layout.spelling)
  /-- It is the dotted one exactly if there is no comment in it. -/
  dotted : unit.packageName = layout.dotted ↔ layout.CommentFree
  /-- The same goes for the name of every type. -/
  names : ∀ name type, (name, type) ∈ unit.enumerate →
    (name = qualifiedName layout.dotted (type.name unit.code) type.outer ↔ layout.CommentFree)

/-- For every way in which a package declaration can be written: comments between the identifiers of
the name, and nothing else, keep it and the names of the types from having their proper form. -/
theorem package_name_of_layout {unit : CompilationUnit} {name : Node} {layout : Layout}
    (hname : NamesPackage unit name) (hspelled : Spelled unit.code name layout) :
    LayoutAccount unit layout := by
  have hsqueezed := packageName_eq_squeeze hname hspelled
  have hdotted : unit.packageName = layout.dotted ↔ layout.CommentFree := by
    rw [hsqueezed, ← String.toList_inj, String.toList_ofList, layout.squeeze_spelling_eq_iff]
  have hfirst := layout.isIdentifier_first.ne_nil
  have hpackage : unit.packageName ≠ "" := by
    rw [hsqueezed, Ne, ← String.toList_inj, String.toList_ofList, layout.squeeze_spelling]
    exact List.append_ne_nil_of_left_ne_nil hfirst _
  have hproper : layout.dotted ≠ "" := by
    rw [Ne, ← String.toList_inj, layout.toList_dotted]
    exact List.append_ne_nil_of_left_ne_nil hfirst _
  refine ⟨hsqueezed, hdotted, ?_⟩
  intro listed type hmem
  rw [(Metrics.of_mem_enumerateStack hmem).1, qualifiedName_left_inj hpackage hproper, hdotted]

/-! ## One name in two layouts -/

/-- The first identifier of a name from offset 8 on. -/
def leadingLeaf : Node where
  kind := "identifier"
  start := 8
  stop := 9

/-- The identifier behind it and some bytes. -/
def trailingLeaf (width : Nat) : Node where
  kind := "identifier"
  start := 9 + width
  stop := 10 + width

/-- A name of two identifiers, with some bytes between them and the nodes in these. -/
def nameOver (width : Nat) (between : List Node) : Node where
  kind := "scoped_identifier"
  start := 8
  stop := 10 + width
  children := leadingLeaf :: (between ++ [trailingLeaf width])

/-- The class `A` in the package `a.b`, with a gap between the two identifiers of the name. -/
def packageOver (gap : String) (name : Node) : CompilationUnit :=
  let width := gap.utf8ByteSize
  .ofTree "A.java" ("package a" ++ gap ++ "b;class A\x7b\x7d")
    { kind := "program", start := 0, stop := 20 + width, children := [
      { kind := "package_declaration", start := 0, stop := 11 + width, children := [
        { kind := "package", named := false, start := 0, stop := 7 },
        name,
        { kind := ";", named := false, start := 10 + width, stop := 11 + width }] },
      { kind := "class_declaration", start := 11 + width, stop := 20 + width, children := [
        { kind := "class", named := false, start := 11 + width, stop := 16 + width },
        { kind := "identifier", field := some .name, start := 17 + width, stop := 18 + width },
        { kind := "class_body", field := some .body, start := 18 + width, stop := 20 + width,
          children := [
            { kind := "\x7b", named := false, start := 18 + width, stop := 19 + width },
            { kind := "\x7d", named := false, start := 19 + width, stop := 20 + width }] }] }] }

theorem isIdentifier_singleton {c : Char} (h : isIdentifierStart c = true) : IsIdentifier [c] :=
  ⟨c, [], rfl, h, by simp⟩

/-- The layout of `a.b` with a gap between the two identifiers. -/
def layoutOver (gap : String) (hgap : IsGap gap.toList) : Layout where
  first := "a"
  later := [(gap, "b")]
  isIdentifier_first := isIdentifier_singleton (by decide)
  isGap_later := List.forall_mem_singleton.mpr hgap
  isIdentifier_later := by
    have hb : IsIdentifier "b".toList := isIdentifier_singleton (by decide)
    simpa using hb

/-- The class is the only type. -/
theorem names_packageOver (gap : String) (name : Node) :
    let unit := packageOver gap name
    unit.enumerate.map (·.1) = unit.types.map fun type =>
      qualifiedName unit.packageName (type.name unit.code) type.outer := by
  intro unit
  obtain ⟨type, htypes, hnested⟩ :
      ∃ type, unit.types = [type] ∧ type.nested unit.code = [] := ⟨_, rfl, rfl⟩
  rw [CompilationUnit.enumerate, htypes, enumerateStack, hnested, List.append_nil, enumerateStack]
  rfl

/-- The name with white space on both sides of the dot, a line break among it. -/
def spacedName : Node :=
  nameOver 4 [{ kind := ".", named := false, start := 11, stop := 12 }]

theorem isGap_spaces : IsGap " \n.\t".toList :=
  ⟨[' ', '\n'], ['\t'], .space (by decide) (.space (by decide) .nil), .space (by decide) .nil, rfl⟩

theorem namesPackage_spaced : NamesPackage (packageOver " \n.\t" spacedName) spacedName :=
  ⟨[], _, _, rfl, rfl, rfl, by simp⟩

theorem spelled_spaced :
    Spelled (packageOver " \n.\t" spacedName).code spacedName (layoutOver _ isGap_spaces) where
  readable := rfl
  leaves := by
    refine ⟨leadingLeaf, [trailingLeaf 4], ?_, rfl, by decide,
      .cons (by decide) (by decide) (.nil rfl)⟩
    simp [identifierLeaves, spacedName, nameOver, leadingLeaf, trailingLeaf, Node.descendants,
      Node.walk, Node.walkStack]

theorem package_name_of_spaced_layout :
    (packageOver " \n.\t" spacedName).enumerate.map (·.1) = ["a.b.A"] ∧
      LayoutAccount (packageOver " \n.\t" spacedName) (layoutOver _ isGap_spaces) := by
  refine ⟨?_, package_name_of_layout namesPackage_spaced spelled_spaced⟩
  have hpackage : (packageOver " \n.\t" spacedName).packageName = "a.b" := by
    rw [packageName_eq_squeeze namesPackage_spaced spelled_spaced]
    decide
  rw [names_packageOver, hpackage]
  decide

/-- The name with a comment behind the dot. -/
def commentedName : Node :=
  nameOver 6 [
    { kind := ".", named := false, start := 9, stop := 10 },
    { kind := "block_comment", start := 10, stop := 15 }]

theorem isGap_comment : IsGap "./*c*/".toList :=
  ⟨[], _, .nil, .block (by decide : ¬ ['*', '/'] <:+: ['c']) .nil, rfl⟩

theorem namesPackage_commented : NamesPackage (packageOver "./*c*/" commentedName) commentedName :=
  ⟨[], _, _, rfl, rfl, rfl, by simp⟩

theorem spelled_commented :
    Spelled (packageOver "./*c*/" commentedName).code commentedName
      (layoutOver _ isGap_comment) where
  readable := rfl
  leaves := by
    refine ⟨leadingLeaf, [trailingLeaf 6], ?_, rfl, by decide,
      .cons (by decide) (by decide) (.nil rfl)⟩
    simp [identifierLeaves, commentedName, nameOver, leadingLeaf, trailingLeaf, Node.descendants,
      Node.walk, Node.walkStack]

/-- The comment stays in the name of the package and in the name of the class. -/
theorem package_name_with_comment :
    NamesPackage (packageOver "./*c*/" commentedName) commentedName ∧
      Spelled (packageOver "./*c*/" commentedName).code commentedName
        (layoutOver _ isGap_comment) ∧
      (layoutOver _ isGap_comment).dotted = "a.b" ∧
      (packageOver "./*c*/" commentedName).packageName = "a./*c*/b" ∧
      (packageOver "./*c*/" commentedName).packageName ≠ (layoutOver _ isGap_comment).dotted ∧
      (packageOver "./*c*/" commentedName).enumerate.map (·.1) = ["a./*c*/b.A"] := by
  have hpackage : (packageOver "./*c*/" commentedName).packageName = "a./*c*/b" := by
    rw [packageName_eq_squeeze namesPackage_commented spelled_commented]
    decide
  refine ⟨namesPackage_commented, spelled_commented, by decide, hpackage, ?_, ?_⟩
  · rw [hpackage]
    decide
  · rw [names_packageOver, hpackage]
    decide

end Java

end JavaMetrics
