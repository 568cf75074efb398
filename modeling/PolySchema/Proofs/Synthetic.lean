import Mathlib.Data.List.Nodup
import PolySchema.Proofs.Document.Layout
import PolySchema.Proofs.Document.Reordering
import PolySchema.Proofs.Document.RoundTrip
import PolySchema.Synthetic

namespace PolySchema.Synthetic

/-- A word that ends in a number. -/
def numbered (word : String) (index : Nat) : String := word ++ toString index

theorem toList_numbered (word : String) (index : Nat) :
    (numbered word index).toList = word.toList ++ Nat.toDigits 10 index := by
  simp [numbered]

private theorem isDigit_of_mem {index : Nat} {c : Char} (member : c ∈ Nat.toDigits 10 index) :
    c.isDigit = true :=
  Nat.isDigit_of_mem_toDigits (by decide) (by decide) member

theorem isIdentifier_numbered {word : String} (valid : isIdentifier word.toList = true)
    (index : Nat) : isIdentifier (numbered word index).toList = true := by
  rw [toList_numbered]
  cases letters : word.toList with
  | nil =>
    rw [letters] at valid
    cases valid
  | cons first rest =>
    rw [letters] at valid
    simp only [isIdentifier, Bool.and_eq_true, List.all_eq_true] at valid
    have digits : ∀ c ∈ Nat.toDigits 10 index, isIdentifierChar c = true := by
      intro c member
      simp [isIdentifierChar, Char.isAlphanum, isDigit_of_mem member]
    simp only [List.cons_append, isIdentifier, List.all_append, Bool.and_eq_true, List.all_eq_true]
    refine ⟨⟨valid.1.1, valid.1.2, digits⟩, ?_⟩
    simp [Nat.toDigits_ne_nil]

/-- A word without digits is found again in front of the number. -/
theorem numbered_inj {word other : String} {index place : Nat}
    (plain : ∀ c ∈ word.toList, c.isDigit = false)
    (otherPlain : ∀ c ∈ other.toList, c.isDigit = false)
    (same : numbered word index = numbered other place) : word = other ∧ index = place := by
  have front {word : String} (index : Nat) (plain : ∀ c ∈ word.toList, c.isDigit = false) :
      (numbered word index).toList.takeWhile (fun c => !c.isDigit) = word.toList := by
    rw [toList_numbered, List.takeWhile_append_of_pos (by simpa using plain)]
    cases digits : Nat.toDigits 10 index with
    | nil => exact List.append_nil _
    | cons first rest =>
      have digit : first.isDigit = true := isDigit_of_mem (by rw [digits]; exact List.mem_cons_self)
      simp [digit]
  have words : word = other := by
    apply String.toList_injective
    rw [← front index plain, same, front place otherPlain]
  subst words
  refine ⟨rfl, ?_⟩
  have texts := congrArg String.toList same
  rw [toList_numbered, toList_numbered] at texts
  rw [← Nat.ofDigitChars_toDigits (n := index) (b := 10) (by decide) (by decide),
    List.append_cancel_left texts, Nat.ofDigitChars_toDigits (by decide) (by decide)]

/-- The struct at an index of the chain. -/
def node (index : Nat) : StructDef :=
  { name := numbered "Node" index
    fields := [
      ⟨numbered "field" index, .named "Int64", false⟩,
      ⟨numbered "tags" index, .map (.named "String") (.array (.named "String")), true⟩,
      ⟨numbered "at" index, .record
        [⟨"seconds", .named "Int64", false⟩, ⟨"nanos", .named "Int32", false⟩], false⟩]
    parent := match index with
      | 0 => none
      | previous + 1 => some (numbered "Node" previous) }

/-- The method of the interface at an index of the chain. -/
def fetch (index : Nat) : Method :=
  ⟨"fetch", [⟨"id", .named "Int64", false⟩, ⟨"hint", .named "String", true⟩],
    .generic "Page" (.named (numbered "Node" index))⟩

/-- The declarations of one link of the chain. -/
def link (index : Nat) : List Declaration :=
  [.struct (node index),
    .interface ⟨numbered "Service" index, [fetch index], none⟩,
    .function ⟨numbered "load" index, ["T"], [⟨"url", .named "String", false⟩],
      .generic "ApiResponse" (.named "T")⟩,
    .alias ⟨numbered "Ids" index, .array (.named "UInt64")⟩]

/-- The document that the chain is the source of. -/
def document (length : Nat) : Document := ⟨(List.range length).reverse.flatMap link⟩

section Expressible

variable (index : Nat)

theorem expressible_node : (node index).Expressible := by
  have name {word : String} (valid : isIdentifier word.toList = true) :=
    isIdentifier_numbered valid index
  refine ⟨name rfl, ?_, ?_⟩
  · cases index with
    | zero => nofun
    | succ previous =>
      rintro _ ⟨⟩
      exact isIdentifier_numbered rfl previous
  · simp only [node, List.forall_mem_cons, Field.isExpressible, Bool.and_eq_true]
    exact ⟨⟨name rfl, rfl⟩, ⟨name rfl, rfl⟩, ⟨name rfl, rfl⟩, List.forall_mem_nil _⟩

theorem expressible_fetch : (fetch index).signature.Expressible := by
  have parameters : ∀ parameter ∈ [⟨"id", .named "Int64", false⟩, ⟨"hint", .named "String", true⟩],
      Field.isExpressible parameter = true := by decide
  have page : (TypeExpr.generic "Page" (.named (numbered "Node" index))).isExpressible = true := by
    rw [TypeExpr.isExpressible, TypeExpr.isWritable_generic, TypeExpr.isWritable_named,
      isIdentifier_numbered rfl]
    rfl
  have name : isIdentifier "fetch".toList = true := rfl
  exact ⟨name, List.forall_mem_nil _, parameters, page⟩

theorem expressible_link : ∀ declaration ∈ link index, declaration.Expressible := by
  have name {word : String} (valid : isIdentifier word.toList = true) :=
    isIdentifier_numbered valid index
  simp only [link, List.forall_mem_cons]
  refine ⟨expressible_node index, ⟨name rfl, nofun, ?_⟩, ⟨name rfl, ?_, ?_, rfl⟩,
    ⟨name rfl, rfl⟩, List.forall_mem_nil _⟩
  · exact List.forall_mem_singleton.mpr (expressible_fetch index)
  · exact List.forall_mem_singleton.mpr rfl
  · exact List.forall_mem_singleton.mpr rfl

end Expressible

/-- Bodies have one line for each item, without commas. -/
def layout : BodyLayout := .lines false fun _ => false

/-- The lines of a declaration, with those between the first and the last moved to the right. -/
def indentItems (lines : List String) : List String :=
  lines.take 1 ++ ((lines.drop 1).dropLast.map ("  " ++ ·) ++ (lines.drop 1).getLast?.toList)

/-- The source of a link is what its declarations are printed as, with their items moved to the
right and a blank line after each. -/
theorem linkLines_eq (index : Nat) :
    linkLines index =
      (link index).flatMap fun declaration => indentItems (declaration.print layout) ++ [""] := by
  -- Strings are told apart by their characters.
  refine List.map_injective_iff.mpr (fun _ _ => String.toList_injective) ?_
  cases index <;>
    simp [linkLines, nodeHeader, link, node, fetch, layout, indentItems, numbered,
      Declaration.print, BodyLayout.print, printHeader, Keyword.word, Method.print, printSignature,
      Field.print, Field.printAll, TypeExpr.print]

private theorem flatMap_texts (pad : String) (spaces : pad.toList.all (· == ' ') = true)
    (lines : List String) (valid : ∀ line ∈ lines, Line.IsLineText line.toList) :
    ((lines.map (pad ++ ·)).flatMap fun line => Line.texts line.toList) =
      lines.map String.toList := by
  have blank : ∀ c ∈ pad.toList, c = ' ' := by simpa using spaces
  have padding : Text.Blank pad.toList := by
    intro c member
    rw [blank c member]
    decide
  have unbroken : '\n' ∉ pad.toList := fun broken => absurd (blank _ broken) (by decide)
  rw [List.flatMap_map, List.map_eq_flatMap]
  refine List.flatMap_congr fun line member => ?_
  rw [String.toList_append]
  exact (valid line member).texts_padded padding unbroken

theorem flatMap_texts_indentItems {lines : List String}
    (valid : ∀ line ∈ lines, Line.IsLineText line.toList) :
    ((indentItems lines).flatMap fun line => Line.texts line.toList) = lines.map String.toList := by
  have split (rest : List String) : rest.dropLast ++ rest.getLast?.toList = rest := by
    rcases List.eq_nil_or_concat rest with rfl | ⟨front, last, rfl⟩
    · rfl
    · simp
  have kept (part : List String) (inside : part ⊆ lines) :
      (part.flatMap fun line => Line.texts line.toList) = part.map String.toList := by
    simpa using flatMap_texts "" rfl part fun line member => valid line (inside member)
  have tail : (lines.drop 1).dropLast ++ (lines.drop 1).getLast?.toList ⊆ lines := by
    rw [split]
    exact List.drop_subset 1 lines
  obtain ⟨items, last⟩ := List.append_subset.mp tail
  have moved := flatMap_texts "  " rfl (lines.drop 1).dropLast fun line member =>
    valid line (items member)
  rw [indentItems, List.flatMap_append, List.flatMap_append, moved,
    kept _ (List.take_subset 1 lines), kept _ last, ← List.map_append, ← List.map_append, split,
    List.take_append_drop]

theorem texts_chain (length : Nat) :
    Line.texts (chain length).toList =
      ((document length).declarations.flatMap (Declaration.print layout)).map String.toList := by
  have lines (texts : List String) : Line.texts (String.join (texts.map (· ++ "\n"))).toList =
      texts.flatMap fun line => Line.texts line.toList := by
    induction texts with
    | nil => rfl
    | cons line rest ih =>
      have shape : (String.join ((line :: rest).map (· ++ "\n"))).toList =
          line.toList ++ '\n' :: (String.join (rest.map (· ++ "\n"))).toList := by
        simp [String.toList_join]
      rw [shape, Line.texts_append, ih, List.flatMap_cons]
  rw [chain, lines, document, List.flatMap_assoc, List.flatMap_assoc, List.map_flatMap]
  refine List.flatMap_congr fun index _ => ?_
  rw [linkLines_eq, List.flatMap_assoc, List.map_flatMap]
  refine List.flatMap_congr fun declaration member => ?_
  have valid := Declaration.isLineText_print (expressible_link index declaration member) layout
  rw [List.forall_mem_map] at valid
  rw [List.flatMap_append, flatMap_texts_indentItems valid]
  exact List.append_nil _

theorem read_chain (length : Nat) :
    Document.read (chain length) = ⟨document length, []⟩ := by
  have valid : ∀ declaration ∈ (document length).declarations, declaration.Expressible := by
    intro declaration member
    obtain ⟨index, _, inside⟩ := List.mem_flatMap.mp member
    exact expressible_link index declaration inside
  have texts : (Line.scan (chain length).toList).map Line.text =
      (((document length).declarations.zipIdx 0).flatMap fun entry =>
        entry.1.print layout).map String.toList := by
    rw [Line.map_text_scan, texts_chain, ← List.flatMap_map Prod.fst, List.zipIdx_map_fst]
  rw [Document.read, Document.ofLines, Document.collect_group_print valid (fun _ => layout) 0 texts]
  rfl

/-- The words that names of the chain start with. -/
def words : List String := ["Node", "Service", "load", "Ids"]

theorem numbered_inj_of_mem {word other : String} {index place : Nat} (member : word ∈ words)
    (otherMember : other ∈ words) (same : numbered word index = numbered other place) :
    word = other ∧ index = place := by
  have digitless : words.all (fun word => word.toList.all fun c => !c.isDigit) = true := rfl
  have plain : ∀ word ∈ words, ∀ c ∈ word.toList, c.isDigit = false := by simpa using digitless
  exact numbered_inj (plain word member) (plain other otherMember) same

theorem nodup_names (length : Nat) :
    ((document length).declarations.map Declaration.name).Nodup := by
  have shape : (document length).declarations.map Declaration.name =
      (List.range length).reverse.flatMap fun index => words.map (numbered · index) := by
    rw [document, List.map_flatMap]
    rfl
  rw [shape, List.nodup_flatMap]
  constructor
  · intro index _
    refine List.Nodup.map_on ?_ (by decide : words.Nodup)
    intro word member other otherMember same
    exact (numbered_inj_of_mem member otherMember same).1
  · refine (List.nodup_reverse.mpr List.nodup_range).imp ?_
    intro index place different name member again
    obtain ⟨word, listed, rfl⟩ := List.mem_map.mp member
    obtain ⟨other, otherListed, same⟩ := List.mem_map.mp again
    exact different (numbered_inj_of_mem otherListed listed same).2.symm

theorem node_inj {index place : Nat} (same : (node index).name = (node place).name) :
    index = place :=
  (numbered_inj_of_mem List.mem_cons_self List.mem_cons_self same).2

theorem structs_document (length : Nat) :
    (document length).structs = (List.range length).reverse.map node := by
  rw [Document.structs, document, List.filterMap_flatMap, List.map_eq_flatMap]
  rfl

section Node

variable {length index : Nat}

theorem struct?_node (bound : index < length) :
    (document length).struct? (node index).name = some (node index) := by
  have listed : node index ∈ (document length).structs := by
    rw [structs_document]
    exact List.mem_map_of_mem (List.mem_reverse.mpr (List.mem_range.mpr bound))
  cases found : (document length).struct? (node index).name with
  | none => exact absurd (beq_self_eq_true _) (List.find?_eq_none.mp found _ listed)
  | some other =>
    have member := List.mem_of_find?_eq_some found
    rw [structs_document] at member
    obtain ⟨place, _, rfl⟩ := List.mem_map.mp member
    rw [node_inj (StructDef.name_of_first? found)]

/-- The walk from a node goes down to the node with number zero. -/
theorem trace_node (bound : index < length) {seen : List String}
    (fresh : ∀ place < index, (node place).name ∉ seen) :
    Lineage.Trace (document length).structs seen (node index)
      ((List.range index).reverse.map node) none := by
  induction index generalizing seen with
  | zero => exact .top rfl
  | succ previous ih =>
    have below := Nat.lt_of_succ_lt bound
    have parent : (node (previous + 1)).parent? (document length).structs = some (node previous) :=
      StructDef.parent?_eq_some.mpr ⟨rfl, struct?_node below⟩
    rw [List.range_succ, List.reverse_append]
    refine .up parent (fresh previous (Nat.lt_succ_self _)) (ih below fun place earlier known => ?_)
    rcases List.mem_cons.mp known with same | old
    · exact Nat.ne_of_lt earlier (node_inj same)
    · exact fresh place (Nat.lt_succ_of_lt earlier) old

theorem lineage_node (bound : index < length) :
    (node index).lineage (document length).structs = ⟨(List.range index).map node, none⟩ := by
  have fresh : ∀ place < index, (node place).name ∉ [(node index).name] := by
    intro place below known
    exact Nat.ne_of_lt below (node_inj (List.mem_singleton.mp known))
  rw [StructDef.lineage, (trace_node bound fresh).climb_eq, ← List.map_reverse,
    List.reverse_reverse]

/-- The fields of a link after resolution. -/
def flatFields (index : Nat) : List Field :=
  [⟨numbered "field" index, .primitive .int64, false⟩,
    ⟨numbered "tags" index, .map (.primitive .string) (.array (.primitive .string)), true⟩,
    ⟨numbered "at" index, .record [⟨"seconds", .primitive .int64, false⟩,
      ⟨"nanos", .primitive .int32, false⟩], false⟩]

theorem classify_node (index : Nat) :
    (node index).fields.map Field.classify = flatFields index := rfl

/-- A node has the fields of all nodes up to it, and nothing is wrong with it. -/
theorem resolveStruct_node (bound : index < length) :
    (document length).resolveStruct (node index) =
      pure ⟨numbered "Node" index, (List.range index).map (numbered "Node"),
        (List.range (index + 1)).flatMap flatFields, 3 * index⟩ := by
  have inherited : ((List.range index).flatMap flatFields).length = 3 * index := by
    simp [List.length_flatMap, flatFields, Nat.mul_comm]
  rw [Document.resolveStruct, lineage_node bound, StructDef.flatten]
  simp only [List.flatMap_map, classify_node, inherited, List.map_map, List.range_succ,
    List.flatMap_append, List.flatMap_singleton]
  rfl

end Node

theorem unresolvedParents_document (length : Nat) :
    (document length).unresolvedParents = [] := by
  rw [Document.unresolvedParents, List.filterMap_eq_nil_iff]
  intro declaration member
  obtain ⟨index, listed, inside⟩ := List.mem_flatMap.mp member
  have bound : index < length := List.mem_range.mp (List.mem_reverse.mp listed)
  simp only [link, List.mem_cons, List.not_mem_nil, or_false] at inside
  rcases inside with rfl | rfl | rfl | rfl
  · cases index with
    | zero => rfl
    | succ previous =>
      have found : (document length).struct? (node previous).name = some (node previous) :=
        struct?_node (Nat.lt_of_succ_lt bound)
      have named : (node (previous + 1)).parent = some (node previous).name := rfl
      simp [Document.missingParent?, named, found]
  · rfl
  · rfl
  · rfl

theorem diagnostics_resolve_document (length : Nat) :
    (document length).resolve.diagnostics = [] := by
  rw [Document.diagnostics_resolve, Document.duplicates_eq_nil (nodup_names length),
    unresolvedParents_document, structs_document, List.flatMap_map]
  refine List.flatMap_eq_nil_iff.mpr fun index listed => ?_
  rw [resolveStruct_node (List.mem_range.mp (List.mem_reverse.mp listed))]
  rfl

/-- The chain of any length is read and resolved without a problem, and each of its nodes inherits
the fields of all nodes before it. -/
theorem chain_resolves (length : Nat) :
    let read := Document.read (chain length)
    let resolution := read.value.resolve
    read.diagnostics = [] ∧ read.value.declarations.length = 4 * length ∧
      resolution.diagnostics = [] ∧
      ∀ index < length, ∃ flat, resolution.struct? ("Node" ++ toString index) = some flat ∧
        flat.ancestors = (List.range index).map (fun place => "Node" ++ toString place) ∧
        flat.inherited = 3 * index ∧
        flat.fields = (List.range (index + 1)).flatMap fun place =>
          [⟨"field" ++ toString place, .primitive .int64, false⟩,
            ⟨"tags" ++ toString place,
              .map (.primitive .string) (.array (.primitive .string)), true⟩,
            ⟨"at" ++ toString place, .record [⟨"seconds", .primitive .int64, false⟩,
              ⟨"nanos", .primitive .int32, false⟩], false⟩] := by
  intro read resolution
  have whole : read = ⟨document length, []⟩ := read_chain length
  have resolved : resolution = (document length).resolve := by
    rw [show resolution = read.value.resolve from rfl, whole]
  rw [resolved, whole]
  refine ⟨rfl, ?_, diagnostics_resolve_document length, ?_⟩
  · simp [document, List.length_flatMap, link, Nat.mul_comm]
  · intro index bound
    have found : (document length).resolve.struct? (node index).name =
        some ⟨numbered "Node" index, (List.range index).map (numbered "Node"),
          (List.range (index + 1)).flatMap flatFields, 3 * index⟩ := by
      rw [Document.struct?_resolve, struct?_node bound, Option.map_some, resolveStruct_node bound]
      rfl
    exact ⟨_, found, rfl, rfl, rfl⟩

theorem chain_resolves_three :
    2 < 3 ∧ ∃ flat, (Document.read (chain 3)).value.resolve.struct? "Node2" = some flat ∧
      flat.ancestors = ["Node0", "Node1"] ∧ flat.inherited = 6 ∧
      flat.fields.map (fun field => (field.name, field.optional)) =
        [("field0", false), ("tags0", true), ("at0", false), ("field1", false), ("tags1", true),
          ("at1", false), ("field2", false), ("tags2", true), ("at2", false)] := by
  obtain ⟨_, _, _, nodes⟩ := chain_resolves 3
  obtain ⟨flat, found, ancestors, inherited, fields⟩ := nodes 2 (by decide)
  refine ⟨by decide, flat, found, ancestors, inherited, ?_⟩
  rw [fields]
  rfl

end PolySchema.Synthetic
