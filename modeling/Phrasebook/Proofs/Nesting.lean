-- Nesting of the module. The lines that open something and those that close it match, and
-- the indentation of each line tells how many of them are open around it.
import Phrasebook.Proofs.ModuleLines

namespace Phrasebook

/-! ## Kinds of lines -/

/-- What a line of a module is. -/
inductive LineKind where
  | blank
  | documentation
  | opening
  | closing
  | lookup
  deriving DecidableEq, Repr

namespace LineKind

def indentation (line : List Char) : Nat := (line.takeWhile (· == ' ')).length

/-- The line without its indentation. -/
def unindented (line : List Char) : List Char := line.dropWhile (· == ' ')

/-- The kind of a line, if it is of one. Documentation opens nothing, however it ends. -/
def of? (line : List Char) : Option LineKind :=
  if line = [] then some blank
  else if "///".toList <+: unindented line then some documentation
  else if [' ', '\x7b'] <:+ line then some opening
  else if unindented line = ['\x7d'] then some closing
  else if "NSLocalizedString(".toList <+: unindented line ∨
    "String(format: NSLocalizedString(".toList <+: unindented line then some lookup
  else none

/-- By how much a line changes the depth. -/
def change : LineKind → Int
  | opening => 1
  | closing => -1
  | _ => 0

/-- The depth after some lines, when it is 0 before them. -/
def depth : List (List Char) → Int
  | [] => 0
  | line :: rest => ((of? line).map change).getD 0 + depth rest

/-- The depth of a line itself, told from the depth before it. A line that closes
something stands at the depth after it. -/
def level (before : Int) (line : List Char) : Int :=
  if of? line = some closing then before - 1 else before

/-- A line of a kind with the indentation of a depth. -/
structure StandsAt (kind : LineKind) (start : Int) (line : List Char) : Prop where
  of?_eq : of? line = some kind
  indentation_eq : (indentation line : Int) = 4 * start

theorem of?_nil : of? [] = some blank := rfl

@[simp] theorem depth_nil : depth [] = 0 := rfl

@[simp] theorem depth_cons (line : List Char) (lines : List (List Char)) :
    depth (line :: lines) = ((of? line).map change).getD 0 + depth lines := rfl

@[simp] theorem depth_append (lines more : List (List Char)) :
    depth (lines ++ more) = depth lines + depth more := by
  induction lines with
  | nil => simp
  | cons line lines ih => rw [List.cons_append, depth_cons, depth_cons, ih, Int.add_assoc]

end LineKind

open LineKind

/-! ## Nested lines -/

/-- Lines of the five kinds. The depth is never below 0, and it is 0 again from the last
line on that is not empty, which closes something. A line has four blanks of indentation
for each level. -/
structure WellNested (lines : List (List Char)) : Prop where
  known : ∀ line ∈ lines, (of? line).isSome
  nonneg : ∀ before, before <+: lines → 0 ≤ depth before
  indented : ∀ before line after, lines = before ++ line :: after → line ≠ [] →
    (indentation line : Int) = 4 * level (depth before) line
  closed : ∃ body last blanks, lines = body ++ last :: blanks ∧ of? last = some closing ∧
    (∀ line ∈ blanks, line = []) ∧ ∀ before, before ≠ [] → before <+: lines →
      (depth before = 0 ↔ body.length < before.length)

/-- Lines at a depth that never go below some other depth. -/
structure Segment (bottom start : Int) (lines : List (List Char)) : Prop where
  known : ∀ line ∈ lines, (of? line).isSome
  above : ∀ before, before <+: lines → bottom ≤ start + depth before
  indented : ∀ before line after, lines = before ++ line :: after → line ≠ [] →
    (indentation line : Int) = 4 * level (start + depth before) line

/-- Lines that stay at their depth or above it, and come back to it. -/
structure Block (start : Int) (lines : List (List Char)) : Prop
    extends Segment start start lines where
  balanced : depth lines = 0

section

variable {bottom start : Int} {line : List Char} {lines more before : List (List Char)}

theorem prefix_or_of_prefix_append (h : before <+: lines ++ more) :
    before <+: lines ∨ ∃ inner, before = lines ++ inner ∧ inner <+: more := by
  rcases List.prefix_or_prefix_of_prefix h (List.prefix_append lines more) with hin | ⟨inner, rfl⟩
  · exact Or.inl hin
  · exact Or.inr ⟨inner, rfl, (List.prefix_append_right_inj lines).mp h⟩

theorem Segment.nil (h : bottom ≤ start) : Segment bottom start [] where
  known := by simp
  above := by
    intro before hbefore
    rw [List.prefix_nil.mp hbefore, depth_nil]
    omega
  indented := by simp

theorem Segment.singleton {kind : LineKind} (hkind : of? line = some kind) (hstart : bottom ≤ start)
    (hend : bottom ≤ start + kind.change)
    (hindent : line ≠ [] → (indentation line : Int) = 4 * level start line) :
    Segment bottom start [line] where
  known := List.forall_mem_singleton.mpr (by rw [hkind, Option.isSome_some])
  above := by
    intro before hbefore
    rcases List.prefix_cons_iff.mp hbefore with rfl | ⟨rest, rfl, hrest⟩
    · simpa using hstart
    · rw [List.prefix_nil.mp hrest]
      simpa [hkind] using hend
  indented := by
    intro before other after hsplit
    obtain ⟨rfl, rfl, rfl⟩ : before = [] ∧ line = other ∧ after = [] := by
      cases before <;> simp_all
    simpa using hindent

theorem Segment.append (h : Segment bottom start lines)
    (hmore : Segment bottom (start + depth lines) more) :
    Segment bottom start (lines ++ more) where
  known := List.forall_mem_append.mpr ⟨h.known, hmore.known⟩
  above := by
    intro before hbefore
    rcases prefix_or_of_prefix_append hbefore with hin | ⟨inner, rfl, hinner⟩
    · exact h.above before hin
    · rw [depth_append, ← Int.add_assoc]
      exact hmore.above inner hinner
  indented := by
    intro before line after hsplit hline
    rcases List.append_eq_append_iff.mp hsplit with ⟨inner, rfl, hinner⟩ | ⟨inner, hlines, hinner⟩
    · rw [depth_append, ← Int.add_assoc]
      exact hmore.indented inner line after hinner hline
    · cases inner with
      | nil =>
        rw [List.append_nil] at hlines
        simpa [hlines] using hmore.indented [] line after hinner.symm hline
      | cons other inner =>
        cases hinner
        exact h.indented before line inner hlines hline

theorem Segment.mono {lower : Int} (h : Segment bottom start lines) (hlower : lower ≤ bottom) :
    Segment lower start lines where
  known := h.known
  above := fun before hbefore => hlower.trans (h.above before hbefore)
  indented := h.indented

theorem Block.nil (start : Int) : Block start [] where
  toSegment := .nil (Int.le_refl start)
  balanced := depth_nil

theorem Block.append (h : Block start lines) (hmore : Block start more) :
    Block start (lines ++ more) where
  toSegment := h.toSegment.append (by simpa [h.balanced] using hmore.toSegment)
  balanced := by rw [depth_append, h.balanced, hmore.balanced, Int.add_zero]

theorem Block.blank (start : Int) : Block start [[]] where
  toSegment := .singleton of?_nil (Int.le_refl start) (Int.add_zero start).ge (absurd rfl)
  balanced := rfl

/-- A line that neither opens nor closes something. -/
theorem Block.singleton {kind : LineKind} (h : kind.StandsAt start line)
    (hchange : kind.change = 0) : Block start [line] where
  toSegment := by
    have hlevel : level start line = start := by
      rw [level, if_neg]
      intro hclosing
      cases h.of?_eq.symm.trans hclosing
      cases hchange
    exact .singleton h.of?_eq (Int.le_refl start) (by omega) fun _ => by
      rw [hlevel, h.indentation_eq]
  balanced := by simp [h.of?_eq, hchange]

/-- What is opened and closed again, with the lines inside one level deeper. -/
theorem Block.enclose {first last : List Char} (hfirst : opening.StandsAt start first)
    (hlast : closing.StandsAt start last) (h : Block (start + 1) lines) :
    Block start (first :: (lines ++ [last])) where
  toSegment := by
    have hopen : Segment start start [first] :=
      .singleton hfirst.of?_eq (Int.le_refl start) (by rw [change]; omega) fun _ => by
        rw [level, if_neg (by simp [hfirst.of?_eq]), hfirst.indentation_eq]
    have hclose : Segment start (start + 1) [last] :=
      .singleton hlast.of?_eq (by omega) (by rw [change]; omega) fun _ => by
        rw [level, if_pos hlast.of?_eq, hlast.indentation_eq, Int.add_sub_cancel]
    have hinner : Segment start (start + 1) lines := h.toSegment.mono (by omega)
    have hdepth : start + depth [first] = start + 1 := by simp [hfirst.of?_eq, change]
    have hrest : Segment start (start + 1) (lines ++ [last]) :=
      hinner.append (by rwa [h.balanced, Int.add_zero])
    exact hopen.append (by rwa [hdepth])
  balanced := by simp [hfirst.of?_eq, hlast.of?_eq, h.balanced, change]

/-- A block at depth 0 in one pair of an opening and a closing line, and an empty line
behind it. -/
theorem Block.wellNested {first last : List Char} (hfirst : opening.StandsAt 0 first)
    (hlast : closing.StandsAt 0 last) (h : Block 1 lines) :
    WellNested (first :: lines ++ last :: [[]]) := by
  have hwhole : Block 0 (first :: (lines ++ [last]) ++ [[]]) :=
    (Block.enclose hfirst hlast h).append (.blank 0)
  have hlines : first :: (lines ++ [last]) ++ [[]] = first :: lines ++ last :: [[]] := by simp
  rw [hlines] at hwhole
  refine ⟨hwhole.known, fun before hbefore => ?_, fun before line after hsplit hline => ?_,
    first :: lines, last, [[]], rfl, hlast.of?_eq, by simp, fun before hsome hbefore => ?_⟩
  · simpa using hwhole.above before hbefore
  · simpa using hwhole.indented before line after hsplit hline
  · rcases prefix_or_of_prefix_append hbefore with hin | ⟨rest, rfl, hrest⟩
    · -- what is open from the first line on is not closed yet
      rcases List.prefix_cons_iff.mp hin with rfl | ⟨inner, rfl, hinner⟩
      · exact absurd rfl hsome
      · have habove := h.above inner hinner
        have hlength := hinner.length_le
        rw [depth_cons, hfirst.of?_eq]
        simp only [Option.map_some, Option.getD_some, change, List.length_cons]
        omega
    · rcases List.prefix_cons_iff.mp hrest with rfl | ⟨blanks, rfl, hblanks⟩
      · simp [hfirst.of?_eq, h.balanced, change]
      · have hdepth : depth blanks = 0 := by
          rcases List.prefix_cons_iff.mp hblanks with rfl | ⟨none, rfl, hnone⟩
          · rfl
          · rw [List.prefix_nil.mp hnone]
            rfl
        simp [hfirst.of?_eq, hlast.of?_eq, h.balanced, change, hdepth]

end

/-! ## Kinds of generated lines -/

namespace SourceLine

variable {depth : Nat} {text : String}

theorem indentation_code (h : text.toList.head? ≠ some ' ') :
    indentation (code depth text).chars = 4 * depth := by
  have htext : text.toList.takeWhile (· == ' ') = [] := by
    cases hchars : text.toList with
    | nil => rfl
    | cons c cs =>
      rw [hchars] at h
      exact List.takeWhile_cons_of_neg (by simpa using h)
  rw [indentation, chars_code, List.takeWhile_append_of_pos (by simp), htext]
  simp

theorem unindented_code (h : text.toList.head? ≠ some ' ') :
    unindented (code depth text).chars = text.toList := by
  rw [unindented, chars_code, List.dropWhile_append_of_pos (by simp)]
  cases hchars : text.toList with
  | nil => rfl
  | cons c cs =>
    rw [hchars] at h
    exact List.dropWhile_cons_of_neg (by simpa using h)

theorem of?_code {c : Char} (hfirst : text.toList.head? = some c) (hc : c ≠ ' ') :
    of? (code depth text).chars =
      if "///".toList <+: text.toList then some documentation
      else if [' ', '\x7b'] <:+ (code depth text).chars then some opening
      else if text.toList = ['\x7d'] then some closing
      else if "NSLocalizedString(".toList <+: text.toList ∨
        "String(format: NSLocalizedString(".toList <+: text.toList then some lookup
      else none := by
  have hsome : (code depth text).chars ≠ [] := by
    rintro hnil
    simp [chars_code] at hnil
    simp [hnil.2] at hfirst
  rw [of?, if_neg hsome, unindented_code (by simpa [hfirst] using hc)]

theorem not_slashes {c : Char} (hfirst : text.toList.head? = some c) (hc : c ≠ '/') :
    ¬ "///".toList <+: text.toList := by
  rintro ⟨rest, hrest⟩
  rw [← hrest] at hfirst
  cases hfirst
  exact hc rfl

theorem not_brace {c : Char} {line : List Char} (hlast : line.getLast? = some c) (hc : c ≠ '\x7b') :
    ¬ [' ', '\x7b'] <:+ line := by
  rintro ⟨start, rfl⟩
  rw [List.getLast?_append] at hlast
  cases hlast
  exact hc rfl

theorem standsAt_documentation (doc : String) :
    documentation.StandsAt depth (code depth ("/// " ++ doc)).chars where
  of?_eq := by
    rw [of?_code (c := '/') (by simp) (by decide), if_pos]
    exact ⟨' ' :: doc.toList, by simp⟩
  indentation_eq := by
    rw [indentation_code (by simp), Int.natCast_mul]
    rfl

theorem standsAt_opening {start last : String} (hfirst : (start ++ last).toList.head? = some 'p')
    (hlast : [' ', '\x7b'] <:+ last.toList) :
    opening.StandsAt depth (code depth (start ++ last)).chars where
  of?_eq := by
    rw [of?_code hfirst (by decide), if_neg (not_slashes hfirst (by decide)), if_pos]
    rw [chars_code, String.toList_append]
    exact hlast.trans ((List.suffix_append _ _).trans (List.suffix_append _ _))
  indentation_eq := by
    rw [indentation_code (by rw [hfirst]; decide), Int.natCast_mul]
    rfl

theorem standsAt_closing (depth : Nat) : closing.StandsAt depth (code depth "\x7d").chars where
  of?_eq := by
    have hlast : (code depth "\x7d").chars.getLast? = some '\x7d' := by simp [chars_code]
    rw [of?_code (c := '\x7d') rfl (by decide), if_neg (by decide),
      if_neg (not_brace hlast (by decide)), if_pos (by decide)]
  indentation_eq := by
    rw [indentation_code (by decide), Int.natCast_mul]
    rfl

theorem standsAt_lookup {start last : String} (hlast : last.toList.getLast? = some ')')
    (hfirst : "NSLocalizedString(".toList <+: (start ++ last).toList ∨
      "String(format: NSLocalizedString(".toList <+: (start ++ last).toList) :
    lookup.StandsAt depth (code depth (start ++ last)).chars := by
  obtain ⟨c, hc, hblank, hslash, hclose⟩ :
      ∃ c, (start ++ last).toList.head? = some c ∧ c ≠ ' ' ∧ c ≠ '/' ∧ c ≠ '\x7d' := by
    rcases hfirst with ⟨rest, hrest⟩ | ⟨rest, hrest⟩
    · exact ⟨'N', by rw [← hrest]; rfl, by decide⟩
    · exact ⟨'S', by rw [← hrest]; rfl, by decide⟩
  have hbrace : (start ++ last).toList ≠ ['\x7d'] := by
    intro heq
    rw [heq] at hc
    cases hc
    exact hclose rfl
  refine ⟨?_, ?_⟩
  · rw [of?_code hc hblank, if_neg (not_slashes hc hslash),
      if_neg (not_brace (getLast?_code hlast) (by decide)), if_neg hbrace, if_pos hfirst]
  · have hhead : (start ++ last).toList.head? ≠ some ' ' := by
      rw [hc]
      simpa using hblank
    rw [indentation_code hhead, Int.natCast_mul]
    rfl

end SourceLine

/-! ## Blocks of generated lines -/

namespace Accessor

variable (a : Accessor) (table : String) (depth : Nat)

theorem block_docLines : Block depth ((a.docLines depth).map SourceLine.chars) := by
  unfold docLines
  split
  · exact .nil depth
  · exact .singleton (SourceLine.standsAt_documentation _) rfl

theorem standsAt_signature :
    opening.StandsAt depth (SourceLine.code depth a.signature).chars := by
  unfold signature
  split
  · exact SourceLine.standsAt_opening (by simp) (by decide)
  · exact SourceLine.standsAt_opening (by simp) (by decide)

theorem standsAt_body :
    LineKind.lookup.StandsAt depth (SourceLine.code depth (a.body table)).chars := by
  unfold body lookup
  split
  · exact SourceLine.standsAt_lookup (by decide) (Or.inl (by simp))
  · exact SourceLine.standsAt_lookup (by decide) (Or.inr (by simp))

theorem block_sourceLines : Block depth ((a.sourceLines table depth).map SourceLine.chars) := by
  rw [sourceLines, List.map_append]
  exact (a.block_docLines depth).append (.enclose (a.standsAt_signature depth)
    (SourceLine.standsAt_closing depth) (.singleton (a.standsAt_body table (depth + 1)) rfl))

end Accessor

namespace Item

theorem standsAt_opening (name : String) (depth : Nat) :
    LineKind.opening.StandsAt depth (SourceLine.code depth (opening name)).chars :=
  SourceLine.standsAt_opening (by simp) (by decide)

-- The proofs go through items and lists of items in turn, as their lines do.
mutual

theorem block_sourceLines (table : String) : (item : Item) → (depth : Nat) →
    Block depth ((item.sourceLines table depth).map SourceLine.chars)
  | accessor a, depth => by
    rw [sourceLines]
    exact a.block_sourceLines table depth
  | nested name items, depth => by
    have hinside := block_bodyLines table items (depth + 1)
    rw [sourceLines, List.cons_append, List.map_cons, List.map_append]
    exact .enclose (standsAt_opening name depth) (SourceLine.standsAt_closing depth) hinside

theorem block_bodyLines (table : String) : (items : List Item) → (depth : Nat) →
    Block depth ((bodyLines table depth items).map SourceLine.chars)
  | [], depth => by
    rw [bodyLines]
    exact .nil depth
  | [item], depth => by
    rw [bodyLines]
    exact block_sourceLines table item depth
  | item :: next :: rest, depth => by
    rw [bodyLines, List.map_append, List.map_cons]
    · exact (block_sourceLines table item depth).append
        ((Block.blank depth).append (block_bodyLines table (next :: rest) depth))
    · simp

end

end Item

/-! ## The lines of the file -/

namespace AccessorModule

theorem splitOn_render {m : AccessorModule} (h : ∀ line ∈ m.sourceLines, '\n' ∉ line.chars) :
    m.render.toList.splitOn '\n' =
      headerLines ++ (m.sourceLines.map SourceLine.chars ++ [[]]) := by
  have hheader : ∀ line ∈ headerLines, '\n' ∉ line := fun line hline =>
    headerLines_areUnbroken line hline '\n' (Or.inl rfl)
  have hall : ∀ line ∈ headerLines ++ m.sourceLines.map SourceLine.chars, '\n' ∉ line :=
    List.forall_mem_append.mpr ⟨hheader, List.forall_mem_map.mpr h⟩
  rw [toList_render, splitOn_flatMap hall, List.append_assoc]

theorem wellNested_sourceLines (m : AccessorModule) :
    WellNested (m.sourceLines.map SourceLine.chars ++ [[]]) := by
  have hbody := Item.block_bodyLines m.tableName (Item.group m.accessors) 1
  have hlines : m.sourceLines.map SourceLine.chars ++ [[]] =
      (SourceLine.code 0 (Item.opening m.typeName)).chars ::
        (Item.bodyLines m.tableName 1 (Item.group m.accessors)).map SourceLine.chars ++
        (SourceLine.code 0 "\x7d").chars :: [[]] := by
    simp [sourceLines, root, Item.sourceLines]
  rw [hlines]
  exact Block.wellNested (Item.standsAt_opening m.typeName 0) (SourceLine.standsAt_closing 0) hbody

end AccessorModule

/-- The module of an accepted catalog is five lines of header and well nested lines behind
them. A line feed in the name of the tables is the only thing that could part them
elsewhere. -/
theorem Catalog.module_wellNested {c : Catalog} {r : ResolvedCatalog} {n : Naming}
    (h : c.resolve = .ok r) (htype : Settings.checkTypeName n.typeName = .ok ())
    (htable : '\n' ∉ n.tableName.toList) :
    ((r.accessorModule n).render.toList.splitOn '\n').take 5 = AccessorModule.headerLines ∧
    WellNested (((r.accessorModule n).render.toList.splitOn '\n').drop 5) := by
  have hcomes := comesFrom_of_resolve h
  have hlines : ∀ line ∈ (r.accessorModule n).sourceLines, '\n' ∉ line.chars := by
    intro line hline hin
    obtain ⟨a, -, hfeed⟩ := (AccessorModule.mem_sourceLines_iff (hcomes.names_areIdentifiers htype)
      hcomes.accessors_arePlain (Or.inl rfl)).mp ⟨line, hline, hin⟩
    exact hfeed.elim htable a.feed_not_mem_docLine
  rw [AccessorModule.splitOn_render hlines]
  exact ⟨rfl, (r.accessorModule n).wellNested_sourceLines⟩

/-- Texts that end like a line that opens something, and like one that closes it. -/
def Catalog.braced : Catalog where
  languages := ["en"]
  entries := [⟨"menu.file.open", .ofList [("en", "Open \x7b")], []⟩,
    ⟨"menu.close", .ofList [("en", "\x7d")], []⟩]

theorem Catalog.braced_module_wellNested : ∃ r, Catalog.braced.resolve = .ok r ∧
    r.accessors.map Accessor.docLine = ["Open \x7b", "\x7d"] ∧
    WellNested (((r.accessorModule {}).render.toList.splitOn '\n').drop 5) := by
  have hdocs : Catalog.braced.resolve.map (·.accessors.map Accessor.docLine) =
      .ok ["Open \x7b", "\x7d"] := by
    decide +kernel
  obtain ⟨r, hr, hlines⟩ := Validation.map_eq_ok_iff.mp hdocs
  exact ⟨r, hr, hlines, (module_wellNested (n := {}) hr (by decide) (by decide)).2⟩

end Phrasebook
