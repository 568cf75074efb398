import PolySchema.Proofs.Target.Lines

namespace PolySchema

theorem TypeExpr.AllNames.unbroken {type : TypeExpr} (names : type.AllNames IsBareText) :
    type.EachName Unbroken := by
  intro inner nested name own
  have inside := names inner nested
  cases inner with
  | named text =>
    rw [List.mem_singleton.mp own]
    exact IsBareText.unbroken inside
  | record fields =>
    obtain ⟨field, member, rfl⟩ := List.mem_map.mp own
    exact unbroken_of_isIdentifier (inside field member)
  | generic base argument =>
    rw [List.mem_singleton.mp own]
    exact unbroken_of_isIdentifier inside.1
  | _ => cases own

namespace Document

theorem unbroken_resolveDeclaration (source : String) {declaration : Declaration}
    (member : declaration ∈ (Document.read source).value.declarations) :
    ((Document.read source).value.resolveDeclaration declaration).value.EachName Unbroken := by
  have valid := allNames_read source
  exact eachName_resolveDeclaration
    (fun name inside => unbroken_of_isIdentifier (valid.names name inside))
    (fun type inside => (valid.types type inside).unbroken) member

/-- The fields of a struct, those of the most remote ancestor first and its own last. -/
def fieldsOf (document : Document) (decl : StructDef) : List Field :=
  (decl.lineage document.structs).ancestors.flatMap StructDef.fields ++ decl.fields

/-- The members of a declaration that is rendered as a block. An interface has its own methods
only. -/
def memberLines? (settings : Settings) (target : Target) (document : Document) :
    Declaration → Option (List String)
  | .struct decl =>
    some ((document.fieldsOf decl).map fun field => target.fieldLine settings field.classify)
  | .interface decl => some (decl.methods.map fun method => target.methodLine method.classify)
  | .function _ => none
  | .alias decl =>
    decl.type.fields?.map fun fields => fields.map fun field =>
      target.fieldLine settings field.classify

theorem members?_resolveDeclaration (settings : Settings) (target : Target) (document : Document)
    (declaration : Declaration) :
    target.members? settings (document.resolveDeclaration declaration).value =
      document.memberLines? settings target declaration := by
  rcases declaration with decl | decl | decl | ⟨name, type⟩
  · have fields : (decl.flatten (decl.lineage document.structs)).value.fields =
        (document.fieldsOf decl).map Field.classify := by
      rw [fieldsOf, List.map_append, List.map_flatMap]
      rfl
    calc target.members? settings (document.resolveDeclaration (.struct decl)).value
      _ = some ((decl.flatten (decl.lineage document.structs)).value.fields.map
          (target.fieldLine settings)) := rfl
      _ = _ := by
        rw [fields, List.map_map]
        rfl
  · exact congrArg some List.map_map
  · rfl
  · cases type with
    | named text =>
      have bare : (TypeExpr.named text).classify.fields? = none := by
        rw [TypeExpr.classify]
        cases Primitive.ofName? text <;> rfl
      exact congrArg (Option.map fun fields => fields.map (target.fieldLine settings)) bare
    | record fields =>
      calc target.members? settings
            (document.resolveDeclaration (.alias ⟨name, .record fields⟩)).value
        _ = some ((Field.classifyAll fields).map (target.fieldLine settings)) := rfl
        _ = _ := by
          rw [Field.classifyAll_eq_map, List.map_map]
          rfl
    | _ => rfl

theorem keyword_resolveDeclaration (document : Document) (declaration : Declaration) :
    (document.resolveDeclaration declaration).value.keyword = declaration.keyword := by
  cases declaration <;> rfl

end Document

namespace Output

/-- The lines of a banner. -/
def bannerLines (text : String) : List String :=
  (Text.lines text.toList).map fun line =>
    if line.isEmpty then "//" else "// " ++ String.ofList line

/-- The blocks of the generated text with their lines apart. -/
def blockLines (settings : Settings) (target : Target) (items : List ResolvedItem) :
    List (List String) :=
  (settings.banner.map bannerLines).toList ++ items.filterMap fun item =>
    (target.render settings item).map (Snippet.lines settings.indent)

theorem blocks_eq (settings : Settings) (target : Target) (items : List ResolvedItem) :
    blocks settings target items = (blockLines settings target items).map "\n".intercalate := by
  rw [blocks, blockLines, List.map_append, List.map_filterMap]
  congr 1
  · cases settings.banner <;> rfl
  · simp only [Option.map_map]
    rfl

theorem isLine_of_mem_bannerLines {text : String} :
    ∀ line ∈ bannerLines text, Text.IsLine line.toList ∧ ['/', '/'] <+: line.toList := by
  refine List.forall_mem_map.mpr fun line member => ?_
  have unbroken : Unbroken (String.ofList line) := by
    rw [Unbroken, String.toList_ofList]
    exact Text.unbroken_of_mem_lines member
  split
  · exact ⟨isLine_of_unbroken (by decide) (by decide), by decide⟩
  · refine ⟨isLine_of_unbroken (by simp) (unbroken_append.mpr ⟨by decide, unbroken⟩), ?_⟩
    rw [String.toList_append]
    exact (show ['/', '/'] <+: "// ".toList by decide).trans (List.prefix_append _ _)

theorem bannerLines_ne_nil {text : String} (nonempty : text ≠ "") : bannerLines text ≠ [] := by
  intro empty
  exact nonempty (String.toList_eq_nil_iff.mp (Text.eq_nil_of_lines (List.map_eq_nil_iff.mp empty)))

theorem isComment_of_mem_banner {text : String} (nonempty : text ≠ "") :
    ∀ line ∈ (banner text).toList.splitOn '\n', ['/', '/'] <+: line := by
  have split : (banner text).toList.splitOn '\n' = (bannerLines text).map String.toList :=
    splitOn_intercalate_lines (bannerLines_ne_nil nonempty) fun line member =>
      (isLine_of_mem_bannerLines line member).1
  rw [split]
  exact List.forall_mem_map.mpr fun line member => (isLine_of_mem_bannerLines line member).2

end Output

/-- The block of a declaration: the text of its snippet. One with members has them on lines of their
own between the header line and the closing line, in order. -/
structure Document.Shows (settings : Settings) (target : Target) (document : Document)
    (declaration : Declaration) (block : List Char) : Prop where
  rendered : ∃ snippet,
    target.render settings (document.resolveDeclaration declaration).value = some snippet ∧
      block = (snippet.render settings.indent).toList
  members : ∀ members, document.memberLines? settings target declaration = some members →
    members ≠ [] →
      let item := (document.resolveDeclaration declaration).value
      block.splitOn '\n' = (target.attributes settings item ++
        [target.header settings item ++ " \x7b"] ++ members.map (settings.indent ++ ·) ++
        ["\x7d" ++ target.ending item]).map String.toList

namespace Output

section

variable {settings : Settings} (target : Target) (document : Document)
  (indent : Unbroken settings.indent) (derives : ∀ trait ∈ settings.derives, Unbroken trait)

include indent derives

theorem shows_of_render {declaration : Declaration} {snippet : Snippet}
    (names : (document.resolveDeclaration declaration).value.EachName Unbroken)
    (rendered : target.render settings (document.resolveDeclaration declaration).value =
      some snippet) :
    document.Shows settings target declaration (snippet.render settings.indent).toList := by
  refine ⟨⟨snippet, rendered, rfl⟩, fun members found nonempty => ?_⟩
  have lines := (Target.plain_render derives names rendered).isLine indent
  rw [← Document.members?_resolveDeclaration] at found
  rw [target.render_of_members? settings found] at rendered
  cases rendered
  rw [Snippet.render, splitOn_intercalate_lines (Snippet.lines_ne_nil _ _) lines, Target.block,
    Snippet.lines, if_neg (by simpa using nonempty)]

/-- The blocks behind the banner are those of the declarations that the target expresses. -/
theorem forall₂_shows {declarations : List Declaration}
    (names : ∀ declaration ∈ declarations,
      (document.resolveDeclaration declaration).value.EachName Unbroken) :
    List.Forall₂ (document.Shows settings target)
      (declarations.filter fun declaration => target.expresses declaration.keyword)
      ((declarations.filterMap fun declaration =>
        (target.render settings (document.resolveDeclaration declaration).value).map
          (Snippet.render settings.indent)).map String.toList) := by
  induction declarations with
  | nil => exact .nil
  | cons declaration rest ih =>
    obtain ⟨own, others⟩ := List.forall_mem_cons.mp names
    have expressed := target.isSome_render settings (document.resolveDeclaration declaration).value
    rw [Document.keyword_resolveDeclaration] at expressed
    rw [List.filter_cons, ← expressed, List.filterMap_cons]
    cases rendered : target.render settings (document.resolveDeclaration declaration).value with
    | none => exact ih others
    | some snippet =>
      exact .cons (shows_of_render target document indent derives own rendered) (ih others)

theorem isLine_of_mem_blockLines {items : List ResolvedItem} (titled : settings.banner ≠ some "")
    (names : ∀ item ∈ items, item.EachName Unbroken) :
    ∀ lines ∈ blockLines settings target items,
      lines ≠ [] ∧ ∀ line ∈ lines, Text.IsLine line.toList := by
  refine List.forall_mem_append.mpr ⟨?_, fun lines member => ?_⟩
  · intro lines member
    obtain ⟨text, given, rfl⟩ := Option.map_eq_some_iff.mp (Option.mem_toList.mp member)
    refine ⟨bannerLines_ne_nil fun empty => titled (empty ▸ given), fun line inside => ?_⟩
    exact (isLine_of_mem_bannerLines line inside).1
  · obtain ⟨item, present, shown⟩ := List.mem_filterMap.mp member
    obtain ⟨snippet, rendered, rfl⟩ := Option.map_eq_some_iff.mp shown
    exact ⟨snippet.lines_ne_nil _,
      (Target.plain_render derives (names item present) rendered).isLine indent⟩

end

section

variable {settings : Settings} {target : Target} {resolution : Resolution}
  (lines : ∀ lines ∈ blockLines settings target resolution.items,
    lines ≠ [] ∧ ∀ line ∈ lines, Text.IsLine line.toList)

include lines

theorem unended_body (nonempty : blocks settings target resolution.items ≠ []) :
    Text.Unended (ofResolution settings target resolution).body := by
  rw [body_ofResolution, String.toList_intercalate]
  refine .intercalate (mt List.map_eq_nil_iff.mp nonempty) ?_ _
  rw [blocks_eq, List.map_map]
  refine List.forall_mem_map.mpr fun block member => ?_
  obtain ⟨present, each⟩ := lines block member
  rw [Function.comp_apply, String.toList_intercalate]
  exact .intercalate (mt List.map_eq_nil_iff.mp present)
    (List.forall_mem_map.mpr fun line inside => (each line inside).unended) _

theorem text_of_blocks (nonempty : blocks settings target resolution.items ≠ []) :
    (ofResolution settings target resolution).text.toList =
      (ofResolution settings target resolution).body ++ ['\n'] := by
  obtain ⟨c, last, _⟩ := unended_body lines nonempty
  have present : (ofResolution settings target resolution).body ≠ [] := by
    intro empty
    rw [empty] at last
    cases last
  rw [text_ofResolution, if_neg present]

theorem text_eq_empty_iff : (ofResolution settings target resolution).text = "" ↔
    blocks settings target resolution.items = [] := by
  constructor
  · intro empty
    by_contra nonempty
    have ended := text_of_blocks lines nonempty
    rw [empty] at ended
    exact List.append_ne_nil_of_right_ne_nil _ (List.cons_ne_nil _ _) ended.symm
  · intro empty
    rw [ofResolution, empty]
    rfl

/-- The text falls apart into its blocks. -/
theorem paragraphs_body (nonempty : blocks settings target resolution.items ≠ []) :
    Text.paragraphs (ofResolution settings target resolution).body =
      (blocks settings target resolution.items).map String.toList := by
  have apart : (blocks settings target resolution.items).map String.toList =
      ((blockLines settings target resolution.items).map (List.map String.toList)).map
        ['\n'].intercalate := by
    rw [blocks_eq, List.map_map, List.map_map]
    exact List.map_congr_left fun block _ => String.toList_intercalate
  rw [body_ofResolution, String.toList_intercalate, apart]
  refine Text.paragraphs_intercalate (fun empty => nonempty ?_) ?_
  · rw [blocks_eq, List.map_eq_nil_iff.mp empty, List.map_nil]
  · refine List.forall_mem_map.mpr fun block member => ?_
    exact List.forall_mem_map.mpr (lines block member).2

end

/-- For every source and every target, as long as neither the margin nor a derived trait breaks a
line and a banner has a text: the generated text is empty just if there is neither a banner nor a
declaration that the target expresses. If not, it ends with one line feed, and in front of that it
falls apart at its empty lines into the banner, all of it comment lines, and one block for every
such declaration in order. -/
theorem ofSource_blocks (settings : Settings) (target : Target) (source : String)
    (indent : '\n' ∉ settings.indent.toList)
    (derives : ∀ trait ∈ settings.derives, '\n' ∉ trait.toList)
    (titled : settings.banner ≠ some "") :
    let document := (Document.read source).value
    let shown := document.declarations.filter fun declaration =>
      target.expresses declaration.keyword
    let text := (ofSource settings target source).text
    (text = "" ↔ settings.banner = none ∧ shown = []) ∧
    (text ≠ "" → ∃ body blocks, text.toList = body ++ ['\n'] ∧ body.getLast? ≠ some '\n' ∧
      Text.paragraphs body =
        (settings.banner.map fun title => (banner title).toList).toList ++ blocks ∧
      List.Forall₂ (document.Shows settings target) shown blocks) ∧
    ∀ title ∈ settings.banner, ∀ line ∈ (banner title).toList.splitOn '\n',
      ['/', '/'] <+: line := by
  intro document shown text
  have names (declaration : Declaration) (member : declaration ∈ document.declarations) :=
    Document.unbroken_resolveDeclaration source member
  have valid : ∀ item ∈ document.resolve.items, item.EachName Unbroken := by
    rw [Document.items_resolve]
    exact List.forall_mem_map.mpr names
  have lines := isLine_of_mem_blockLines target indent derives titled valid
  have shows := forall₂_shows target document indent derives names
  have parts : blocks settings target document.resolve.items =
      (settings.banner.map banner).toList ++ document.declarations.filterMap fun declaration =>
        (target.render settings (document.resolveDeclaration declaration).value).map
          (Snippet.render settings.indent) := by
    rw [blocks, Document.items_resolve, List.filterMap_map]
    rfl
  have empty : text = "" ↔ blocks settings target document.resolve.items = [] :=
    text_eq_empty_iff lines
  refine ⟨?_, fun nonempty => ?_, fun title given line member => ?_⟩
  · rw [empty, parts, List.append_eq_nil_iff, Option.toList_eq_nil_iff, Option.map_eq_none_iff,
      ← List.map_eq_nil_iff (f := String.toList), ← List.length_eq_zero_iff, ← shows.length_eq,
      List.length_eq_zero_iff]
  · have present := mt empty.mpr nonempty
    obtain ⟨c, last, visible⟩ := unended_body lines present
    refine ⟨_, _, text_of_blocks lines present, ?_, ?_, shows⟩
    · rw [last]
      exact fun same => visible (Option.some.inj same)
    · rw [paragraphs_body lines present, parts, List.map_append]
      cases settings.banner <;> rfl
  · exact isComment_of_mem_banner (fun empty => titled (empty ▸ given)) line member

/-- A banner with an empty line in it, above a struct with an inherited field and an interface. -/
theorem ofSource_blocks_titled :
    let settings : Settings :=
      { indent := "\t", exported := true, derives := ["Debug", "Clone"]
        banner := some "one\n\ntwo\n" }
    let source := "struct Node extends Base\x7bnext:Node?\x7d\nstruct Base\x7bid:Int32\x7d\n" ++
      "interface Shape\x7b\narea():Float64\n\x7d"
    let node : StructDef := ⟨"Node", [⟨"next", .named "Node", true⟩], some "Base"⟩
    let base : StructDef := ⟨"Base", [⟨"id", .named "Int32", false⟩], none⟩
    let shape : InterfaceDef := ⟨"Shape", [⟨"area", [], .named "Float64"⟩], none⟩
    let document := (Document.read source).value
    let text := (ofSource settings .rust source).text
    '\n' ∉ settings.indent.toList ∧ (∀ trait ∈ settings.derives, '\n' ∉ trait.toList) ∧
      settings.banner ≠ some "" ∧
      document.declarations = [.struct node, .struct base, .interface shape] ∧
      ∃ body block others, text.toList = body ++ ['\n'] ∧ body.getLast? ≠ some '\n' ∧
        Text.paragraphs body = (banner "one\n\ntwo\n").toList :: block :: others ∧
        block.splitOn '\n' = ["#[derive(Debug, Clone)]", "pub struct Node \x7b", "\tpub id: i32,",
          "\tpub next: Option<Node>,", "\x7d"].map String.toList ∧
        List.Forall₂ (document.Shows settings .rust)
          (document.declarations.filter fun declaration =>
            Target.expresses .rust declaration.keyword) (block :: others) := by
  intro settings source node base shape document text
  have indent : '\n' ∉ settings.indent.toList := by decide
  have derives : ∀ trait ∈ settings.derives, '\n' ∉ trait.toList := by decide
  have titled : settings.banner ≠ some "" := by decide
  have declared : document.declarations = [.struct node, .struct base, .interface shape] := by
    subst document source node base shape
    with_unfolding_all rfl
  obtain ⟨empty, apart, _⟩ := ofSource_blocks settings .rust source indent derives titled
  obtain ⟨body, blocks, ended, last, paragraphs, shows⟩ :=
    apart fun none => Option.some_ne_none _ (empty.mp none).1
  have shown : document.declarations.filter (fun declaration =>
      Target.expresses .rust declaration.keyword) =
        [.struct node, .struct base, .interface shape] := by
    rw [declared]
    rfl
  obtain ⟨block, others, first, rest, rfl⟩ := List.forall₂_cons_left_iff.mp (shown ▸ shows)
  have structs : document.structs = [node, base] := by
    rw [Document.structs, declared]
    rfl
  have trace : Lineage.Trace [node, base] [node.name] node [base] none :=
    .up rfl (by decide) (.top rfl)
  have members : document.memberLines? settings .rust (.struct node) =
      some ["pub id: i32,", "pub next: Option<Node>,"] := by
    rw [Document.memberLines?, Document.fieldsOf, structs, StructDef.lineage, trace.climb_eq]
    rfl
  exact ⟨indent, derives, titled, declared, body, block, others, ended, last, paragraphs,
    first.members _ members (List.cons_ne_nil _ _), shows⟩

end Output
end PolySchema
