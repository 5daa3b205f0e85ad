/-
The written form of each kind, as a table. `Kind.format` lists what a kind is written as, first to last: fixed printer
operations, and fields in one of a few styles, each under a guard. `formatted` reads the table.

- `format_fields`: every declared field that is not a flag is written exactly once, in schema order;
- `format_sound`: a field has the shape that its style takes, and stands in a block exactly if its kind opens one;
- `fields_flatMap`: what is read off the stored fields of a valid node in order is read off its format in order.
The routines keep to the table on every valid node, so what is true of all thirty can be shown style by style.
-/
import Mathlib.Data.List.DropRight
import StyleTree.Emission
import StyleTree.Proofs.Printer
import StyleTree.Proofs.Validity

namespace StyleTree

namespace Emission

open Instr

/-! ## Formats -/

/-- how a field is written -/
inductive Style where
  /-- as it stands; the items of a list with commas between them -/
  | plain
  /-- a text as it stands -/
  | text
  /-- a text as a quoted literal -/
  | literal
  /-- a text as comment lines -/
  | lines
  /-- texts joined by commas -/
  | selectors
  /-- statements, one to a line -/
  | body
  /-- statements in braces -/
  | braced
  /-- the entries of a map in parentheses -/
  | entries
  /-- a text or a call -/
  | declared
deriving DecidableEq, Repr

/-- one part of a written form -/
inductive Part where
  | print (op : Printer.Op)
  /-- the dollar sign of a variable position -/
  | sigil
  /-- the word that starts an `@if`, or continues an `@else` -/
  | keyword
  | field (name : String) (style : Style)
deriving DecidableEq, Repr

/-- when a part is written -/
inductive Guard where
  | always
  /-- the flag is set -/
  | flag (field : String)
  /-- the field is stored -/
  | given (field : String)
  /-- the field is stored and not empty -/
  | filled (field : String)
deriving DecidableEq, Repr

structure Element where
  guard : Guard
  part : Part
deriving DecidableEq, Repr

namespace Element

def token (s : String) : Element := ⟨.always, .print (.token s)⟩

def space : Element := ⟨.always, .print .space⟩

def newline : Element := ⟨.always, .print .newline⟩

def maybeNewline : Element := ⟨.always, .print .maybeNewline⟩

def sigil : Element := ⟨.always, .sigil⟩

def keyword : Element := ⟨.always, .keyword⟩

def field (name : String) (style : Style := .plain) : Element := ⟨.always, .field name style⟩

/-- elements under a guard -/
def only (guard : Guard) (elements : List Element) : List Element := elements.map fun e => { e with guard }

/-- the field that an element writes -/
def field? (e : Element) : Option String :=
  match e.part with
  | .field name _ => some name
  | _ => none

end Element

end Emission

open Emission Element in
/-- what a kind is written as -/
def Kind.format : Kind → List Element
  | .styleSheet => [field "children" .body]
  | .comment => [field "value" .lines]
  | .newline => [.newline]
  | .identifier => [sigil, field "name" .text]
  | .sassString => [field "value" .literal]
  | .sassNumber | .sassBoolean | .sassValue => [field "value"]
  | .sassColor => [field "value" .text]
  | .sassList => [token "(", field "elements", token ")"]
  | .sassMap => [field "properties" .entries]
  | .sassMapProperty =>
    only (.flag "quoted") [token "'"] ++ [field "key"] ++ only (.flag "quoted") [token "'"] ++
      [token ":", space, field "value"]
  | .assignment =>
    [field "id", token ":", space, field "init"] ++ only (.flag "default") [space, token "!default"] ++
      only (.flag "global") [space, token "!global"] ++ [token ";"]
  | .assignmentPattern => [field "left", token ":", space, field "right"]
  | .restPattern => [field "id", token "..."]
  | .declaration =>
    [field "property" .text, token ":", space, field "value" .declared] ++
      only (.flag "important") [space, token "!important"] ++ [token ";"]
  | .rule => [field "selectors" .selectors, space, field "declarations" .braced]
  | .atRule =>
    [token "@", field "name" .text] ++ only (.filled "media") [space, field "media" .text] ++
      only (.filled "children") [space, field "children" .braced]
  | .blockStatement => [field "body" .braced]
  | .callExpression => [field "callee", token "(", field "arguments", token ")"]
  | .sassFunctionCall => [field "id", token "(", field "params", token ")"]
  | .sassFunction =>
    [token "@function", space, field "id", token "(", field "params", token ")", space, field "body"]
  | .sassMixin =>
    [token "@mixin", space, field "id"] ++ only (.filled "params") [token "(", field "params", token ")"] ++
      [space, field "body"]
  | .sassMixinCall =>
    [token "@include", space, field "id"] ++ only (.filled "params") [token "(", field "params", token ")"] ++
      only (.given "body") [space, field "body"] ++ [token ";"]
  | .atContent => [maybeNewline, token "@content;"]
  | .atReturn => [maybeNewline, token "@return", space, field "argument", token ";"]
  | .ifStatement =>
    [keyword, space, field "test", space, field "consequent"] ++
      only (.given "alternate") [space, token "@else", space, field "alternate"]
  | .logicalExpression => [field "left", space, field "operator" .text, space, field "right"]
  | .sassImport => [token "@import", space, field "path" .literal, token ";"]
  | .sassModule =>
    [token "@use", space, field "path" .literal] ++
      only (.given "namespace") [space, token "as", space, field "namespace" .text] ++ [token ";"]

/-- a flag: a boolean that may be omitted and is itself never written -/
def FieldSpec.isFlag (spec : FieldSpec) : Bool :=
  match spec.shape with
  | .primitive .boolean => spec.optional
  | _ => false

/-- **Every field once, in order.** A kind writes its declared fields, flags apart, exactly once and in schema order. -/
theorem format_fields (k : Kind) :
    k.format.filterMap Emission.Element.field? =
      (k.schema.filter fun spec => !spec.isFlag).map FieldSpec.name := by
  cases k <;> rfl

/-- the kinds that write their children in a block -/
def Kind.opensBlock : Kind → Bool
  | .blockStatement | .rule | .atRule | .sassMap => true
  | _ => false

namespace Emission

/-- the guard of a field that looks at no other field -/
def Guard.isFor (field : String) : Guard → Bool
  | .always => true
  | .given f | .filled f => f == field
  | .flag _ => false

/-- whether the nodes of a field stand in a block; a style for texts has none -/
def Style.inBlock? : Style → Option Bool
  | .plain | .body | .declared => some false
  | .braced | .entries => some true
  | .text | .literal | .lines | .selectors => none

/-- a shape that accepts only what the style can write -/
def Style.suits : Style → Shape → Bool
  | .plain, _ => true
  | .text, .primitive .string | .literal, .primitive .string | .lines, .primitive .string => true
  | .selectors, .listOf (.primitive .string) => true
  | .body, .listOf (.deferred _ _) | .braced, .listOf (.deferred _ _) | .entries, .listOf (.kind _) => true
  | .declared, .oneOf [.primitive .string, .node] => true
  | _, _ => false

/-- blocks are written by styles only; a field is declared, suits its style, guards itself, and stands in a block
exactly if its kind opens one; only a declaration has a declared value -/
def Element.isSound (k : Kind) (e : Element) : Bool :=
  match e.part with
  | .print op => op.isFlat
  | .sigil | .keyword => true
  | .field name style =>
    e.guard.isFor name && style.inBlock?.all (· == k.opensBlock) &&
      (style != .declared || (k == .declaration && name == "value")) &&
      k.schema.any fun spec => spec.name == name && style.suits spec.shape

theorem format_sound (k : Kind) : ∀ e ∈ k.format, e.isSound k = true := by
  rw [← List.all_eq_true]
  cases k <;> rfl

/-- what the table promises of an element that writes a field -/
theorem field_sound {k : Kind} {e : Element} (he : e ∈ k.format) {name : String} {style : Style}
    (hp : e.part = .field name style) :
    e.guard.isFor name = true ∧ (∀ b, style.inBlock? = some b → k.opensBlock = b) ∧
      (style = .declared → k = .declaration ∧ name = "value") ∧
      ∃ spec ∈ k.schema, spec.name = name ∧ style.suits spec.shape = true := by
  have hs := format_sound k e he
  simp only [Element.isSound, hp, Bool.and_eq_true, Bool.or_eq_true, List.any_eq_true, bne_iff_ne, beq_iff_eq] at hs
  obtain ⟨⟨⟨hg, hb⟩, hd⟩, hspec⟩ := hs
  refine ⟨hg, fun b hi => ?_, fun h => hd.resolve_left fun hne => hne h, hspec⟩
  rw [hi] at hb
  exact (eq_of_beq hb).symm

open Instr

/-! ## Reading a format -/

def Guard.holds (s : Site) : Guard → Bool
  | .always => true
  | .flag field => s.flag field
  | .given field => (s.get? field).isSome
  | .filled field =>
    match s.get? field with
    | none => false
    | some (.string t) => !t.isEmpty
    | some (.list items) => !items.isEmpty
    | some _ => true

@[simp] theorem holds_flag (s : Site) (field : String) : (Guard.flag field).holds s = s.flag field := rfl

@[simp] theorem holds_given (s : Site) (field : String) : (Guard.given field).holds s = (s.get? field).isSome := rfl

/-- the node of a piece -/
def rendered? : Piece → Option Rendered
  | .node r => some r
  | _ => none

/-- the text of a piece -/
def text? : Piece → Option String
  | .string t => some t
  | _ => none

/-- the entries of a map -/
def entries (items : List Rendered) : Script :=
  if items.isEmpty then [token "()"]
  else [openBlock "("] ++ List.intercalate [token ",", newline] (items.map Rendered.script) ++ [closeBlock ")"]

/-- the kinds of node that a declaration takes as its value -/
def isCall (k : Kind) : Bool := k == .callExpression || k == .sassFunctionCall

/-- why a declaration refuses a value -/
def refusal (found : String) : Fault := .malformed .declaration "value" (.notStringOrCall found)

/-- the value of a declaration -/
def declaredPiece : Piece → Script
  | .string t => [token t]
  | .node r => if isCall r.kind then r.script else [.fail (refusal (Piece.describe (.node r)))]
  | p => [.fail (refusal p.describe)]

/-- comment lines -/
def commentLines (t : String) : Script := List.intercalate [newline] ((Text.lines t.toList).map commentLine)

/-- a piece in a style -/
def Style.write : Style → Piece → Script
  | .plain, p => raw p
  | .text, .string t => [token t]
  | .literal, .string t => [token (Text.quoted t)]
  | .lines, .string t => commentLines t
  | .selectors, .list items => [token (", ".intercalate (items.filterMap text?))]
  | .body, .list items => Emission.body (items.filterMap rendered?)
  | .braced, .list items => Emission.braced (items.filterMap rendered?)
  | .entries, .list items => Emission.entries (items.filterMap rendered?)
  | .declared, p => declaredPiece p
  | _, _ => []

@[simp] theorem raw_null : raw .null = [] := rfl

@[simp] theorem raw_bool (b : Bool) : raw (.bool b) = [token (boolText b)] := rfl

@[simp] theorem raw_number (x : Double) : raw (.number x) = [token x.cssText] := rfl

@[simp] theorem raw_string (t : String) : raw (.string t) = [token t] := rfl

@[simp] theorem raw_node (r : Rendered) : raw (.node r) = r.script := rfl

theorem raw_list (ps : List Piece) : raw (.list ps) = separated (ps.map raw) := by
  have h : ∀ qs, raws qs = qs.map raw := by
    intro qs
    induction qs with
    | nil => rfl
    | cons q qs ih => rw [List.map_cons, ← ih]; rfl
  rw [← h]; rfl

@[simp] theorem raw_nodes (rs : List Rendered) :
    raw (.list (rs.map .node)) = separated (rs.map Rendered.script) := by
  rw [raw_list, List.map_map]; rfl

@[simp] theorem write_plain (p : Piece) : Style.plain.write p = raw p := rfl

@[simp] theorem write_text (t : String) : Style.text.write (.string t) = [token t] := rfl

@[simp] theorem write_literal (t : String) : Style.literal.write (.string t) = [token (Text.quoted t)] := rfl

@[simp] theorem write_lines (t : String) : Style.lines.write (.string t) = commentLines t := rfl

@[simp] theorem write_declared (p : Piece) : Style.declared.write p = declaredPiece p := by cases p <;> rfl

theorem filterMap_rendered? (rs : List Rendered) : (rs.map Piece.node).filterMap rendered? = rs := by
  rw [List.filterMap_map]; exact List.filterMap_some

theorem filterMap_text? (ts : List String) : (ts.map Piece.string).filterMap text? = ts := by
  rw [List.filterMap_map]; exact List.filterMap_some

@[simp] theorem write_selectors (ts : List String) :
    Style.selectors.write (.list (ts.map .string)) = [token (", ".intercalate ts)] := by
  rw [Style.write, filterMap_text?]

@[simp] theorem write_body (rs : List Rendered) : Style.body.write (.list (rs.map .node)) = body rs := by
  rw [Style.write, filterMap_rendered?]

@[simp] theorem write_braced (rs : List Rendered) : Style.braced.write (.list (rs.map .node)) = braced rs := by
  rw [Style.write, filterMap_rendered?]

@[simp] theorem write_entries (rs : List Rendered) : Style.entries.write (.list (rs.map .node)) = entries rs := by
  rw [Style.write, filterMap_rendered?]

/-- a part of a node under a parent; an omitted field writes nothing -/
def Part.script (parent : Option Kind) (s : Site) : Part → Script
  | .print op => [.print op]
  | .sigil => optionally (isVariableContext parent) [token "$"]
  | .keyword => [token (if parent = some .ifStatement then "if" else "@if")]
  | .field name style =>
    match s.get? name with
    | none => []
    | some p => style.write p

def Element.script (parent : Option Kind) (s : Site) (e : Element) : Script :=
  optionally (e.guard.holds s) (e.part.script parent s)

/-- a node under a parent, by the format of its kind -/
def formatted (parent : Option Kind) (s : Site) : Script := s.kind.format.flatMap (Element.script parent s)

end Emission

/-! ## Reading the fields of a valid node -/

/-- a node with its fields ready to be written -/
def Node.site (n : Node) : Site := ⟨n.kind, Emission.fieldPieces n.kind n.fields⟩

namespace Emission

open Schema Shape

theorem pieces_eq (parent : Option Kind) (vs : List Value) : pieces parent vs = vs.map (piece parent) := by
  induction vs with
  | nil => rfl
  | cons v vs ih => simp only [pieces, ih, List.map_cons]

theorem fieldPieces_lookup (k : Kind) (fields : List (String × Value)) (name : String) :
    (fieldPieces k fields).lookup name = (fields.lookup name).map (piece (contextIn k name)) := by
  induction fields with
  | nil => rfl
  | cons e rest ih =>
    obtain ⟨field, v⟩ := e
    simp only [fieldPieces, List.lookup_cons]
    cases h : name == field with
    | true => rw [eq_of_beq h]; rfl
    | false => exact ih

theorem site_get? (n : Node) (name : String) :
    n.site.get? name = (n.get? name).map (piece (contextIn n.kind name)) := fieldPieces_lookup n.kind n.fields name

/-- a child node, ready to be written -/
def rendered (parent : Option Kind) (n : Node) : Rendered :=
  ⟨n.kind, isSilent n.kind n.fields, n.script parent⟩

theorem piece_toValue (parent : Option Kind) (n : Node) : piece parent n.toValue = .node (rendered parent n) := by
  rw [Node.toValue, piece]; rfl

theorem piece_node (parent : Option Kind) (k : Kind) (fs : List (String × Value)) :
    piece parent (.node k fs) = .node (rendered parent ⟨k, fs⟩) := piece_toValue parent ⟨k, fs⟩

theorem piece_string (parent : Option Kind) (t : String) : piece parent (.string t) = .string t := by rw [piece]

theorem piece_list (parent : Option Kind) (vs : List Value) :
    piece parent (.list vs) = .list (vs.map (piece parent)) := by rw [piece, pieces_eq]

theorem piece_nodes (parent : Option Kind) (ns : List Node) :
    piece parent (.list (ns.map Node.toValue)) = .list ((ns.map (rendered parent)).map .node) := by
  rw [piece_list, List.map_map, List.map_map]
  exact congrArg Piece.list (List.map_congr_left fun n _ => piece_toValue parent n)

theorem piece_texts (parent : Option Kind) (ts : List String) :
    piece parent (.list (ts.map .string)) = .list (ts.map .string) := by
  rw [piece_list, List.map_map]
  exact congrArg Piece.list (List.map_congr_left fun t _ => piece_string parent t)

/-- what a style takes a field to be -/
def Style.Fits : Style → Value → Prop
  | .plain, _ => True
  | .text, v | .literal, v | .lines, v => ∃ t, v = .string t
  | .selectors, v => ∃ ts : List String, v = .list (ts.map .string)
  | .body, v | .braced, v | .entries, v => ∃ ns : List Node, v = .list (ns.map Node.toValue)
  | .declared, v => (∃ t, v = .string t) ∨ ∃ k fs, v = .node k fs

theorem fits_of_suits {style : Style} {shape : Shape} {v : Value} (hs : style.suits shape = true)
    (ha : shape.admits v = true) : style.Fits v := by
  unfold Style.suits at hs
  split at hs
  · trivial
  · exact textual_string v ha
  · exact textual_string v ha
  · exact textual_string v ha
  · exact textual_string.list ha
  · exact (nodal_deferred _ _).list ha
  · exact (nodal_deferred _ _).list ha
  · exact (nodal_kind _).list ha
  · simp only [admits_oneOf, List.any_cons, List.any_nil, Bool.or_false, Bool.or_eq_true] at ha
    rcases ha with ha | ha
    · exact Or.inl (textual_string v ha)
    · exact Or.inr (nodal_node v ha)
  · cases hs

/-- a field of a valid node is what its style takes it to be -/
theorem fits_of_valid {n : Node} (hv : n.Valid) {e : Element} (he : e ∈ n.kind.format) {name : String} {style : Style}
    (hp : e.part = .field name style) {v : Value} (hg : n.get? name = some v) : style.Fits v := by
  obtain ⟨-, -, -, spec, hm, rfl, hsuits⟩ := field_sound he hp
  rcases hv.conforms.lookup (schema_names_nodup _) hm with ⟨_, hnone⟩ | ⟨w, hw, ha⟩
  · rw [Node.get?, hnone] at hg; cases hg
  · rw [Node.get?, hw] at hg; cases hg
    exact fits_of_suits hsuits ha

/-- a guard keeps back a stored field of its own only if that is empty -/
theorem empty_of_guard {n : Node} {name : String} {v : Value} (hg : n.get? name = some v) {guard : Guard}
    (hf : guard.isFor name = true) (hh : guard.holds n.site = false) : v = .string "" ∨ v = .list [] := by
  cases guard with
  | always => cases hh
  | flag f => cases hf
  | given f =>
    cases eq_of_beq hf
    rw [holds_given, site_get?, hg] at hh
    cases hh
  | filled f =>
    cases eq_of_beq hf
    rw [Guard.holds, site_get?, hg, Option.map_some] at hh
    cases v with
    | string t =>
      simp only [piece_string, Bool.not_eq_false', String.isEmpty_iff] at hh
      exact Or.inl (by rw [hh])
    | list items =>
      simp only [piece_list, Bool.not_eq_false', List.isEmpty_map, List.isEmpty_iff] at hh
      exact Or.inr (by rw [hh])
    | _ => rw [piece] at hh; cases hh

/-- what a function gives on the field that an element writes -/
def Element.read {α : Type} (n : Node) (F : String → Value → List α) (e : Element) : List α :=
  match e.field? with
  | none => []
  | some name =>
    match n.get? name with
    | none => []
    | some v => F name v

theorem read_field {α : Type} (n : Node) (F : String → Value → List α) {e : Element} {name : String} {style : Style}
    (hp : e.part = .field name style) : e.read n F = ((n.get? name).map (F name)).getD [] := by
  simp only [Element.read, Element.field?, hp]
  cases n.get? name <;> rfl

theorem conforms_flatMap {α : Type} {specs : List FieldSpec} {fields : List (String × Value)}
    (h : Conforms specs fields) (hd : (specs.map FieldSpec.name).Nodup) (F : String → Value → List α) :
    fields.flatMap (fun e => F e.1 e.2) =
      specs.flatMap fun spec => ((fields.lookup spec.name).map (F spec.name)).getD [] := by
  induction h with
  | nil => rfl
  | omitted _ h ih =>
    simp only [List.map_cons, List.nodup_cons] at hd
    rw [List.flatMap_cons, h.lookup_eq_none hd.1, ih hd.2]; rfl
  | @stored spec specs v fields _ _ h ih =>
    simp only [List.map_cons, List.nodup_cons] at hd
    rw [List.flatMap_cons, List.flatMap_cons, List.lookup_cons_self, ih hd.2]
    refine congrArg (F spec.name v ++ ·) (List.flatMap_congr fun other ho => ?_)
    have hne : other.name ≠ spec.name := fun e => hd.1 (e ▸ List.mem_map_of_mem ho)
    rw [List.lookup_cons, beq_eq_false_iff_ne.2 hne]

/-- elements that contribute nothing can be left out -/
theorem flatMap_filter_of_nil {α β : Type} {l : List α} {p : α → Bool} {G : α → List β}
    (h : ∀ a ∈ l, p a = false → G a = []) : l.flatMap G = (l.filter p).flatMap G := by
  induction l with
  | nil => rfl
  | cons a l ih =>
    have ih := ih fun b hb => h b (List.mem_cons_of_mem _ hb)
    cases hp : p a with
    | true => simp [hp, ih]
    | false => simp [hp, ih, h a List.mem_cons_self hp]

theorem flatMap_filterMap {α β γ : Type} (l : List α) (f : α → Option β) (G : β → List γ) :
    (l.filterMap f).flatMap G = l.flatMap fun a => ((f a).map G).getD [] := by
  induction l with
  | nil => rfl
  | cons a l ih => cases h : f a <;> simp [h, ih]

/-- **Stored order is written order.** Whatever is read off the stored fields one after the other, flags apart, is
read off the elements of the format one after the other. -/
theorem fields_flatMap {α : Type} {n : Node} (hv : n.Valid) (F : String → Value → List α)
    (hF : ∀ spec ∈ n.kind.schema, spec.isFlag = true → ∀ b, F spec.name (.bool b) = []) :
    n.fields.flatMap (fun e => F e.1 e.2) = n.kind.format.flatMap (Element.read n F) := by
  let G : String → List α := fun name => ((n.get? name).map (F name)).getD []
  have hflag : ∀ spec ∈ n.kind.schema, spec.isFlag = true → G spec.name = [] := by
    intro spec hs hf
    rcases hv.conforms.lookup (schema_names_nodup _) hs with ⟨_, h⟩ | ⟨v, h, ha⟩
    · simp only [G, Node.get?, h]; rfl
    · have hb : ∃ b, v = .bool b := by
        unfold FieldSpec.isFlag at hf
        split at hf
        · rename_i hshape
          rw [hshape, admits_primitive] at ha
          cases v with
          | bool b => exact ⟨b, rfl⟩
          | _ => cases ha
        · cases hf
      obtain ⟨b, rfl⟩ := hb
      simp only [G, Node.get?, h]
      exact hF spec hs hf b
  calc n.fields.flatMap (fun e => F e.1 e.2)
      = n.kind.schema.flatMap (fun spec => G spec.name) := conforms_flatMap hv.conforms (schema_names_nodup _) F
    _ = (n.kind.schema.filter fun spec => !spec.isFlag).flatMap fun spec => G spec.name :=
        flatMap_filter_of_nil fun spec hs hp => hflag spec hs (by simpa using hp)
    _ = (n.kind.format.filterMap Element.field?).flatMap G := by rw [format_fields, List.flatMap_map]
    _ = n.kind.format.flatMap (Element.read n F) := by
        rw [flatMap_filterMap]
        refine congrArg (List.flatMap · n.kind.format) (funext fun e => ?_)
        unfold Element.read
        cases e.field? with
        | none => rfl
        | some name => cases h : n.get? name <;> simp [G, h]

theorem children_eq {n : Node} (hv : n.Valid) :
    n.children = n.kind.format.flatMap (Element.read n fun _ v => v.top) :=
  fields_flatMap hv (fun _ v => v.top) fun _ _ _ b => Value.top_bool b

/-! ## Bodies -/

/-- the nodes of a body that are written: no silent ones, no blank lines at the end -/
def visibleNodes (ns : List Node) : List Node :=
  (ns.filter fun m => !isSilent m.kind m.fields).rdropWhile fun m => m.kind == .newline

theorem visible_rendered (parent : Option Kind) (ns : List Node) :
    visible (ns.map (rendered parent)) = (visibleNodes ns).map (rendered parent) := by
  rw [visible, visibleNodes, List.rdropWhile, List.filter_map, ← List.map_reverse, List.dropWhile_map,
    ← List.map_reverse]
  rfl

theorem mem_of_mem_visibleNodes {ns : List Node} {m : Node} (h : m ∈ visibleNodes ns) : m ∈ ns :=
  List.mem_of_mem_filter ((List.rdropWhile_prefix _ _).subset h)

/-- comments and blank lines have no children -/
theorem children_of_drop {n : Node} (hv : n.Valid) (hk : n.kind = .comment ∨ n.kind = .newline) :
    n.children = [] := by
  rw [children_eq hv]
  rcases hk with hk | hk
  · have he : Element.field "value" .lines ∈ n.kind.format := by rw [hk]; exact .head _
    rw [hk]
    change Element.read n _ (Element.field "value" .lines) ++ [] = []
    cases hg : n.get? "value" with
    | none => simp [Element.read, Element.field?, Element.field, hg]
    | some v =>
      obtain ⟨t, rfl⟩ := fits_of_valid hv he rfl hg
      simp [Element.read, Element.field?, Element.field, hg]
  · rw [hk]; rfl

/-- elements at the end that contribute nothing can be left out -/
theorem flatMap_rdropWhile_of_nil {α β : Type} {l : List α} {p : α → Bool} {G : α → List β}
    (h : ∀ a ∈ l, p a = true → G a = []) : l.flatMap G = (l.rdropWhile p).flatMap G := by
  induction l using List.reverseRecOn with
  | nil => rfl
  | append_singleton l a ih =>
    have ih := ih fun b hb => h b (List.mem_append_left _ hb)
    rw [List.rdropWhile_concat]
    split
    · rename_i hp
      rw [List.flatMap_append, ← ih, List.flatMap_singleton, h a (by simp) hp, List.append_nil]
    · rfl

/-- what silent nodes and blank lines contribute nothing to comes from the nodes of a body that are written -/
theorem visibleNodes_flatMap {α : Type} {ns : List Node} {F : Node → List α}
    (hs : ∀ m ∈ ns, isSilent m.kind m.fields = true → F m = []) (hn : ∀ m ∈ ns, m.kind = .newline → F m = []) :
    ns.flatMap F = (visibleNodes ns).flatMap F := by
  rw [visibleNodes, ← flatMap_rdropWhile_of_nil]
  · refine flatMap_filter_of_nil fun m hm hf => hs m hm ?_
    rwa [Bool.not_eq_false'] at hf
  · intro m hm hk
    exact hn m (List.mem_of_mem_filter hm) (eq_of_beq hk)

theorem visibleNodes_findSome? {α : Type} {ns : List Node} {g : Node → Option α}
    (h : ∀ m ∈ ns, m.kind = .comment ∨ m.kind = .newline → g m = none) :
    ns.findSome? g = (visibleNodes ns).findSome? g := by
  have hhead : ∀ l : List Node, l.findSome? g = (l.flatMap fun m => (g m).toList).head? := by
    intro l
    rw [List.head?_flatMap]
    exact congrArg (List.findSome? · l) (funext fun m => by cases g m <;> rfl)
  rw [hhead, hhead, visibleNodes_flatMap]
  · intro m hm hs
    rw [isSilent, Bool.and_eq_true] at hs
    rw [h m hm (Or.inl (eq_of_beq hs.1))]; rfl
  · intro m hm hk
    rw [h m hm (Or.inr hk)]; rfl

end Emission

end StyleTree
