import TextColumns.Proofs.Matching.Joined
import TextColumns.Proofs.Regex.Groups

/-!
Texts in which each match is replaced by what a template makes of its groups.  Sizes are counted from
that of the whole text, with the size of each match taken off and that of its expansion put on.
-/

namespace TextColumns.Matching

open Pattern (Flags)
open Search (Slots)
open Text (Extent)

namespace Template

def RefersUpTo (groups : Nat) (read : Except TemplateFault Template) : Prop :=
  ∀ template, read = .ok template → ∀ k, .group k ∈ template → k ≤ groups

variable {groups : Nat} {read : Except TemplateFault Template}

theorem RefersUpTo.char (hread : RefersUpTo groups read) (c : Char) :
    RefersUpTo groups (read.map (.char c :: ·)) := by
  intro template htemplate k hk
  cases read with
  | error fault => cases htemplate
  | ok rest =>
      cases htemplate
      rcases List.mem_cons.mp hk with heq | hk
      · cases heq
      · exact hread rest rfl k hk

theorem RefersUpTo.reference (hread : RefersUpTo groups read) (j : Nat) :
    RefersUpTo groups (reference groups j read) := by
  intro template htemplate k hk
  rw [Template.reference] at htemplate
  by_cases hj : groups < j
  · rw [if_pos hj] at htemplate
    cases htemplate
  · rw [if_neg hj] at htemplate
    cases read with
    | error fault => cases htemplate
    | ok rest =>
        cases htemplate
        rcases List.mem_cons.mp hk with heq | hk
        · cases heq
          exact Nat.le_of_not_lt hj
        · exact hread rest rfl k hk

theorem refersUpTo_parseFrom (groups size : Nat) (chars : List Char) :
    RefersUpTo groups (parseFrom groups size chars) := by
  fun_induction parseFrom groups size chars with
  | case1 => exact fun _ htemplate => by cases htemplate; exact nofun
  | case2 _ ih | case3 _ ih | case7 _ _ _ _ ih | case8 _ _ _ _ _ _ ih => exact ih.char _
  | case4 => exact nofun
  | case5 _ _ _ _ _ ih | case6 _ _ _ _ _ _ ih => exact ih.reference _

theorem le_of_mem_parse {text : String} {template : Template}
    (hparse : parse text groups = .ok template) {k : Nat} (hk : .group k ∈ template) :
    k ≤ groups := by
  cases hread : parseFrom groups text.utf8ByteSize text.toList with
  | ok read =>
      rw [parse, hread] at hparse
      cases hparse
      exact refersUpTo_parseFrom _ _ _ _ hread k hk
  | error fault =>
      rw [parse, hread] at hparse
      cases hparse

end Template

/-- What stands in a text for a piece of a template, given the groups of a match. -/
def Piece.text (text : String) (groups : Groups) : Piece → String
  | .char c => String.singleton c
  | .group k =>
    match Groups.get groups k with
    | some extent => Text.between text extent.start extent.stop
    | none => ""

def Template.expansion (template : Template) (text : String) (groups : Groups) : String :=
  String.join (template.map (Piece.text text groups))

def expandedFrom (template : Template) (text : String) (start : Nat) : List Groups → String
  | [] => Text.between text start text.utf8ByteSize
  | groups :: rest =>
    match Groups.get groups 0 with
    | none => expandedFrom template text start rest
    | some whole =>
      Text.between text start whole.start ++ template.expansion text groups ++
        expandedFrom template text whole.stop rest

theorem expandedFrom_cons {template : Template} {text : String} {start : Nat} {groups : Groups}
    {whole : Extent} {rest : List Groups} (hwhole : Groups.get groups 0 = some whole) :
    expandedFrom template text start (groups :: rest) =
      Text.between text start whole.start ++ template.expansion text groups ++
        expandedFrom template text whole.stop rest := by
  simp only [expandedFrom, hwhole]

/-- Whether groups are parts of a text. -/
def Groups.Proper (text : String) (groups : Groups) : Prop :=
  ∀ k extent, Groups.get groups k = some extent →
    extent.Within text ∧ extent.start ≤ extent.stop

variable {template : Template} {text : String} {groups : Groups}

theorem size_expansion (hgroups : Groups.Proper text groups) (template : Template) :
    (template.expansion text groups).utf8ByteSize = template.size groups := by
  induction template with
  | nil => rfl
  | cons piece rest ih =>
      have hpiece : (piece.text text groups).utf8ByteSize = Template.pieceSize groups piece := by
        cases piece with
        | char c => exact String.utf8ByteSize_singleton
        | group k =>
            rw [Piece.text, Template.pieceSize]
            cases hextent : Groups.get groups k with
            | none => rfl
            | some extent =>
                obtain ⟨hwithin, -⟩ := hgroups k extent hextent
                exact Text.size_between hwithin.start hwithin.stop
      rw [Template.expansion, List.map_cons, String.join_cons, String.utf8ByteSize_append, hpiece,
        Template.size, List.map_cons, total_cons]
      exact congrArg (_ + ·) ih

theorem writes_template (hgroups : Groups.Proper text groups) (template : Template) :
    Writer.Writes (template.write text.toByteArray groups) (template.expansion text groups) := by
  refine Writer.writes_foldl fun piece _ => ?_
  cases piece with
  | char c => exact Writer.writes_pushChar c
  | group k =>
      simp only [Template.writePiece, Piece.text]
      cases hextent : Groups.get groups k with
      | none => exact Writer.writes_nothing
      | some extent =>
          obtain ⟨hwithin, -⟩ := hgroups k extent hextent
          exact Writer.writes_push (Text.toByteArray_between hwithin.start hwithin.stop).symm

inductive GroupsIn (text : String) : (start : Nat) → List Groups → Prop
  | nil {start : Nat} (hstart : Text.IsBoundary text start) : GroupsIn text start []
  | cons {start : Nat} {groups : Groups} {whole : Extent} {rest : List Groups}
      (hstart : Text.IsBoundary text start) (hgroups : Groups.Proper text groups)
      (hwhole : Groups.get groups 0 = some whole) (hle : start ≤ whole.start)
      (hrest : GroupsIn text whole.stop rest) : GroupsIn text start (groups :: rest)

theorem groupsIn_of_orderedIn {start : Nat} {found : List Groups}
    (hordered : OrderedIn text start (found.filterMap (Groups.get · 0)))
    (hproper : ∀ groups ∈ found, Groups.Proper text groups)
    (hwhole : ∀ groups ∈ found, ∃ whole, Groups.get groups 0 = some whole) :
    GroupsIn text start found := by
  induction found generalizing start with
  | nil =>
      cases hordered with
      | nil hstart => exact .nil hstart
  | cons groups rest ih =>
      obtain ⟨hgroups, hproper⟩ := List.forall_mem_cons.mp hproper
      obtain ⟨⟨whole, hget⟩, hwhole⟩ := List.forall_mem_cons.mp hwhole
      rw [@List.filterMap_cons_some _ _ (Groups.get · 0) _ _ _ hget] at hordered
      cases hordered with
      | cons hstart _ hle _ hrest => exact .cons hstart hgroups hget hle (ih hrest hproper hwhole)

variable {start : Nat} {found : List Groups}

/-- The size with some matches replaced is what has been written for them, and the rest of the
text. -/
theorem expandedSize_eq (hgroups : Groups.Proper text groups) {whole : Extent}
    (hwhole : Groups.get groups 0 = some whole) (hle : start ≤ whole.start)
    (hstart : Text.IsBoundary text start) (template : Template) (before : Nat) :
    expandedSize template (Word.wrap (before + (text.utf8ByteSize - start))) groups =
      Word.wrap (before + (Text.between text start whole.start ++
        template.expansion text groups).utf8ByteSize + (text.utf8ByteSize - whole.stop)) := by
  obtain ⟨hwithin, hproper⟩ := hgroups 0 whole hwhole
  have hstop := hwithin.stop.le
  have hinside : whole.stop - whole.start ≤ before + (text.utf8ByteSize - start) := by omega
  rw [expandedSize, hwhole, String.utf8ByteSize_append, Text.size_between hstart hwithin.start,
    size_expansion hgroups, Option.map_some, Option.getD_some, Extent.size,
    Word.wrap_difference_add hinside]
  congr 1
  omega

theorem GroupsIn.foldl_expandedSize (hfound : GroupsIn text start found) (template : Template)
    (before : Nat) :
    found.foldl (expandedSize template) (Word.wrap (before + (text.utf8ByteSize - start))) =
      Word.wrap (before + (expandedFrom template text start found).utf8ByteSize) := by
  -- The size between two matches is what is written by then and the rest of the text.
  induction hfound generalizing before with
  | nil hstart =>
      rw [List.foldl_nil, expandedFrom,
        Text.size_between hstart (Text.isBoundary_utf8ByteSize text)]
  | cons hstart hgroups hwhole hle _ ih =>
      rw [List.foldl_cons, expandedSize_eq hgroups hwhole hle hstart, ih, expandedFrom_cons hwhole]
      simp only [String.utf8ByteSize_append, Nat.add_assoc]

theorem GroupsIn.writes_writeExpanded (hfound : GroupsIn text start found)
    (template : Template) :
    Writer.Writes (writeExpanded template text.toByteArray start · found)
      (expandedFrom template text start found) := by
  induction hfound with
  | nil hstart =>
      refine Writer.writes_push ?_
      rw [expandedFrom, Text.toByteArray_between hstart (Text.isBoundary_utf8ByteSize text),
        String.size_toByteArray]
  | cons hstart hgroups hwhole _ _ ih =>
      obtain ⟨hwithin, -⟩ := hgroups _ _ hwhole
      have hpiece := Writer.writes_push (Text.toByteArray_between hstart hwithin.start).symm
      simp only [writeExpanded, hwhole, expandedFrom_cons hwhole]
      exact (hpiece.append (writes_template hgroups template)).append ih

theorem GroupsIn.counts_expandDraft (hfound : GroupsIn text 0 found) (template : Template) :
    (expandDraft template text found).Counts (expandedFrom template text 0 found) where
  size_eq := by simpa [expandDraft] using hfound.foldl_expandedSize template 0
  writes := hfound.writes_writeExpanded template

def pieceSteps (text : String) (groups : Groups) : Piece → List PartialStep
  | .char _ => []
  | .group k =>
    .entry k groups.length :: ((Groups.get groups k).map (PartialStep.cut text)).toList

/-- The size of each match is taken off the size so far, and each reference is looked up. -/
def sizingSteps (template : Template) (text : String) (size : Nat) : List Groups → List PartialStep
  | [] => []
  | groups :: rest =>
    .entry 0 groups.length ::
      .subtract size (((Groups.get groups 0).map Extent.size).getD 0) ::
      (template.flatMap (pieceSteps text groups) ++
        sizingSteps template text (expandedSize template size groups) rest)

/-- The text between the matches is cut out, and so is each group that is referred to. -/
def fillingSteps (template : Template) (text : String) (start : Nat) :
    List Groups → List PartialStep
  | [] => [.cut text ⟨start, text.utf8ByteSize⟩]
  | groups :: rest =>
    .entry 0 groups.length ::
      match Groups.get groups 0 with
      | none => fillingSteps template text start rest
      | some whole =>
        .cut text ⟨start, whole.start⟩ ::
          (template.flatMap (pieceSteps text groups) ++
            fillingSteps template text whole.stop rest)

/-- Whether the groups of matches have an entry for each reference of a template. -/
def Template.RefersInto (template : Template) (found : List Groups) : Prop :=
  ∀ groups ∈ found, 0 < groups.length ∧ ∀ k, .group k ∈ template → k < groups.length

theorem defined_of_mem_pieceSteps (hgroups : Groups.Proper text groups)
    (hrefers : ∀ k, .group k ∈ template → k < groups.length) :
    ∀ step ∈ template.flatMap (pieceSteps text groups), step.Defined := by
  intro step hstep
  obtain ⟨piece, hpiece, hstep⟩ := List.mem_flatMap.mp hstep
  cases piece with
  | char c => cases hstep
  | group k =>
      rcases List.mem_cons.mp hstep with rfl | hstep
      · exact hrefers k hpiece
      · obtain ⟨extent, hextent, rfl⟩ := Option.map_eq_some_iff.mp (Option.mem_toList.mp hstep)
        exact hgroups k extent hextent

/-- As long as a word can hold what is written and the rest of the text, no size wraps. -/
theorem GroupsIn.defined_sizingSteps (hfound : GroupsIn text start found)
    (hrefers : template.RefersInto found) (before : Nat)
    (hfits : before + (expandedFrom template text start found).utf8ByteSize + text.utf8ByteSize <
      Word.count) :
    ∀ step ∈ sizingSteps template text (Word.wrap (before + (text.utf8ByteSize - start))) found,
      step.Defined := by
  induction hfound generalizing before with
  | nil _ => exact nofun
  | @cons start groups whole rest hstart hgroups hwhole hle _ ih =>
      obtain ⟨⟨hfirst, hpieces⟩, hrest⟩ := List.forall_mem_cons.mp hrefers
      rw [expandedFrom_cons hwhole, String.utf8ByteSize_append, ← Nat.add_assoc before] at hfits
      rw [sizingSteps, expandedSize_eq hgroups hwhole hle hstart]
      refine List.forall_mem_cons.mpr ⟨hfirst, List.forall_mem_cons.mpr ⟨?_, ?_⟩⟩
      · have hstop := (hgroups 0 whole hwhole).1.stop.le
        have hword : Word.wrap (before + (text.utf8ByteSize - start)) =
            before + (text.utf8ByteSize - start) := Nat.mod_eq_of_lt (by omega)
        rw [hwhole, hword]
        show whole.stop - whole.start ≤ before + (text.utf8ByteSize - start)
        omega
      · exact List.forall_mem_append.mpr
          ⟨defined_of_mem_pieceSteps hgroups hpieces, ih hrest _ hfits⟩

theorem GroupsIn.defined_fillingSteps (hfound : GroupsIn text start found)
    (hrefers : template.RefersInto found) :
    ∀ step ∈ fillingSteps template text start found, step.Defined := by
  induction hfound with
  | nil hstart =>
      exact List.forall_mem_singleton.mpr ⟨⟨hstart, Text.isBoundary_utf8ByteSize text⟩, hstart.le⟩
  | cons hstart hgroups hwhole hle _ ih =>
      obtain ⟨⟨hfirst, hpieces⟩, hrest⟩ := List.forall_mem_cons.mp hrefers
      obtain ⟨hwithin, -⟩ := hgroups _ _ hwhole
      simp only [fillingSteps, hwhole]
      exact List.forall_mem_cons.mpr ⟨hfirst, List.forall_mem_cons.mpr ⟨⟨⟨hstart, hwithin.start⟩, hle⟩,
        List.forall_mem_append.mpr ⟨defined_of_mem_pieceSteps hgroups hpieces, ih hrest⟩⟩⟩

section Patterns

variable {pattern : String} {flags : Flags} {regex : Regex}

def foundGroups (regex : Regex) (limit : Option Nat) (text : String) : List Groups :=
  (Text.upTo limit (regex.program.matchesFrom (.start text) none)).map Slots.groups

theorem get_groups (slots : Slots) (k : Nat) : Groups.get slots.groups k = slots.group? k := by
  rw [Groups.get, Slots.groups, List.getElem?_map]
  by_cases hk : k < slots.size / 2
  · rw [List.getElem?_range hk]
    rfl
  · have hstop : slots[2 * k + 1]? = none := Array.getElem?_eq_none (by omega)
    rw [List.getElem?_eq_none (by simpa using hk), Slots.group?, hstop]
    rcases slots[2 * k]? with _ | _ | _ <;> rfl

theorem groupsOfMatches_eq (hcompile : Regex.compile pattern flags = .ok regex)
    {limit : Option Nat} (hlimit : limit ≠ some 0) (text : String) :
    (groupsOfMatches limit regex.matcher text).1 = foundGroups regex limit text := by
  have hmax : limit.map (max 1) = limit := by
    cases limit with
    | none => rfl
    | some n => simpa [Nat.one_le_iff_ne_zero] using hlimit
  have hfound := (Matcher.ready_ofProgram regex.program).matchesUpTo_eq
    (Regex.check_of_compile hcompile) (Regex.advances_of_compile hcompile) limit text
  rw [hmax] at hfound
  exact congrArg (List.map Slots.groups) hfound

theorem exists_slots_of_mem_foundGroups (hcompile : Regex.compile pattern flags = .ok regex)
    {limit : Option Nat} (hgroups : groups ∈ foundGroups regex limit text) :
    ∃ slots, regex.Proper text slots ∧ slots.groups = groups := by
  obtain ⟨slots, hslots, rfl⟩ := List.mem_map.mp hgroups
  exact ⟨slots, Regex.proper_of_mem_matchesFrom hcompile (Text.mem_of_mem_upTo hslots), rfl⟩

theorem wholes_foundGroups (regex : Regex) (limit : Option Nat) (text : String) :
    (foundGroups regex limit text).filterMap (Groups.get · 0) =
      Text.upTo limit (regex.program.extentsIn text) := by
  have hwhole : ∀ slots ∈ regex.program.matchesFrom (.start text) none,
      (slots.group? 0).isSome := fun slots hslots =>
    Option.isSome_iff_exists.mpr (Program.exists_group_of_mem_matchesFrom hslots)
  rw [Program.extentsIn, ← Text.filterMap_upTo _ _ hwhole, foundGroups, List.filterMap_map]
  simp only [Function.comp_def, get_groups]

theorem groupsIn_foundGroups (hcompile : Regex.compile pattern flags = .ok regex)
    (limit : Option Nat) (text : String) : GroupsIn text 0 (foundGroups regex limit text) := by
  refine groupsIn_of_orderedIn ?_ (fun groups hgroups => ?_) fun groups hgroups => ?_
  · rw [wholes_foundGroups]
    exact orderedIn_extentsIn hcompile limit text
  · obtain ⟨slots, hproper, rfl⟩ := exists_slots_of_mem_foundGroups hcompile hgroups
    intro k extent hextent
    rw [get_groups] at hextent
    exact ⟨hproper.within k extent hextent, hproper.ordered k extent hextent⟩
  · obtain ⟨slots, hproper, rfl⟩ := exists_slots_of_mem_foundGroups hcompile hgroups
    rw [get_groups]
    exact hproper.whole

theorem refersInto_foundGroups (hcompile : Regex.compile pattern flags = .ok regex)
    {text : String} (hparse : Template.parse text regex.groupCount = .ok template)
    (limit : Option Nat) (row : String) : template.RefersInto (foundGroups regex limit row) := by
  intro groups hgroups
  obtain ⟨slots, hproper, rfl⟩ := exists_slots_of_mem_foundGroups hcompile hgroups
  obtain ⟨-, hslots, -⟩ := Program.check_eq_ok_iff.mp (Regex.check_of_compile hcompile)
  have hlength : slots.groups.length = regex.program.slots / 2 := by
    rw [Slots.groups, List.length_map, List.length_range, hproper.size_eq]
  rw [hlength]
  refine ⟨by omega, fun k hk => ?_⟩
  have hle := Template.le_of_mem_parse hparse hk
  rw [Regex.groupCount, Program.groupCount] at hle
  omega

end Patterns

end TextColumns.Matching
