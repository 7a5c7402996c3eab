import LuoYun.Lib.Markup
import LuoYun.Util.Xml

/-!
# Messages that are plain markup

The writers of `lyxml_data.c` paste their fields into a template and escape nothing. As long as the
texts among the fields are plain, the message is `Markup.Content`, and all that libxml2 has to do is
to read plain markup (`ReadsPlain`). A field is then found by its path as it was pasted in, except
that an empty element has no text.
-/

namespace LuoYun

open XmlNode
open LuoYun.Markup

/-! ## Reading -/

/-- The declaration that begins every message. -/
def xmlDeclaration : Bytes := cstr "<?xml version=\"1.0\" encoding=\"ISO-8859-1\"?>"

/-- The nodes of plain content. -/
def toNodes : Content → List XmlNode
  | .nil => []
  | .chars s next => .text s :: toNodes next
  | .empty tag attrs next => .element tag attrs [] :: toNodes next
  | .element tag attrs body next => .element tag attrs (toNodes body) :: toNodes next

/-- A document that is plain markup is read as its root element. -/
def ReadsPlain (reader : XmlReader) : Prop :=
  ∀ tag attrs body, (Content.element tag attrs body .nil).Plain →
    reader (xmlDeclaration ++ (Content.element tag attrs body .nil).render) =
      some (.element tag attrs (toNodes body))

/-- A reader of plain markup, for which everything else is not well formed. -/
def plainReader : XmlReader := fun text =>
  if xmlDeclaration.isPrefixOf text then
    match document (text.drop xmlDeclaration.length) with
    | some (.element tag attrs body .nil) => some (.element tag attrs (toNodes body))
    | _ => none
  else none

theorem plainReader_reads : ReadsPlain plainReader := by
  intro tag attrs body h
  rw [plainReader, if_pos (List.isPrefixOf_iff_prefix.mpr (List.prefix_append ..)), List.drop_left,
    document_render h]

/-! ## Elements with a text in them -/

/-- Character data, unless there is none. -/
def ofText (text : Bytes) : Content := if text = [] then .nil else .chars text .nil

/-- An element with nothing but text in it. -/
def leaf (tag : String) (text : Bytes) (next : Content) : Content :=
  .element (cstr tag) [] (ofText text) next

/-- What is in the root element of a message. -/
def message (sender receiver : EntityType) (item : Content) : Content :=
  .empty (cstr "from") [(cstr "entity", dec sender.code)] <|
    .empty (cstr "to") [(cstr "entity", dec receiver.code)] item

/-- The root element of a message as it is read. -/
def messageRoot (sender receiver : EntityType) (item : Content) : XmlNode :=
  .element (cstr "luoyun") [] (toNodes (message sender receiver item))

/-- The text of a message. -/
def messageText (sender receiver : EntityType) (item : Content) : Bytes :=
  xmlDeclaration ++ (Content.element (cstr "luoyun") [] (message sender receiver item) .nil).render

/-- A request with its attributes, in front of its parameters. -/
def requestItem (id action : Int) (reply parameters : Content) : Content :=
  .element (cstr "request") [(cstr "id", dec id), (cstr "action", dec action)]
    (.element (cstr "reply") [(cstr "required", cstr "yes")] reply <|
      .element (cstr "parameters") [] parameters .nil) .nil

/-- The element of a request. -/
def requestNode (id action : Int) (reply parameters : Content) : XmlNode :=
  .element (cstr "request") [(cstr "id", dec id), (cstr "action", dec action)]
    (toNodes (.element (cstr "reply") [(cstr "required", cstr "yes")] reply <|
      .element (cstr "parameters") [] parameters .nil))

/-- A response with its attributes. -/
def responseItem (id status : Int) (body : Content) : Content :=
  .element (cstr "response") [(cstr "id", dec id), (cstr "status", dec status)] body .nil

/-- The element of a response. -/
def responseNode (id status : Int) (body : Content) : XmlNode :=
  .element (cstr "response") [(cstr "id", dec id), (cstr "status", dec status)] (toNodes body)

theorem responseNode_props (id status : Int) (body : Content) :
    (responseNode id status body).prop (cstr "id") = some (dec id) ∧
      (responseNode id status body).prop (cstr "status") = some (dec status) := ⟨rfl, rfl⟩

theorem responseItem_nodes (id status : Int) (body : Content) :
    toNodes (responseItem id status body) = [responseNode id status body] := rfl

/-! ## The text of an element

These equations cut a rendered element into the pieces of which the templates are made. -/

theorem cstr_append (a b : String) : cstr (a ++ b) = cstr a ++ cstr b := by
  simp [cstr]

theorem cstr_cat (a b : String) (s : Bytes) : cstr a ++ (cstr b ++ s) = cstr (a ++ b) ++ s := by
  rw [cstr_append, List.append_assoc]

theorem render_nil : Content.nil.render = [] := rfl

theorem renderAttrs_nil : renderAttrs [] = [] := rfl

theorem renderAttrs_cons (key : String) (value : Bytes) (attrs : Attrs) :
    renderAttrs ((cstr key, value) :: attrs) =
      cstr (" " ++ key ++ "=\"") ++ (value ++ (cstr "\"" ++ renderAttrs attrs)) := by
  have hb : cstr " " = [32] := rfl
  have he : cstr "=\"" = [61, 34] := rfl
  have hq : cstr "\"" = [34] := rfl
  simp [renderAttrs, renderAttr, cstr_append, hb, he, hq]

theorem render_empty (tag : String) (attrs : Attrs) (next : Content) :
    (Content.empty (cstr tag) attrs next).render =
      cstr ("<" ++ tag) ++ (renderAttrs attrs ++ (cstr "/>" ++ next.render)) := by
  have ho : cstr "<" = [60] := rfl
  have hc : cstr "/>" = [47, 62] := rfl
  simp [Content.render, cstr_append, ho, hc]

theorem render_element (tag : String) (attrs : Attrs) (body next : Content) :
    (Content.element (cstr tag) attrs body next).render =
      cstr ("<" ++ tag) ++ (renderAttrs attrs ++ (cstr ">" ++ (body.render ++
        (cstr ("</" ++ tag ++ ">") ++ next.render)))) := by
  have ho : cstr "<" = [60] := rfl
  have hc : cstr ">" = [62] := rfl
  have he : cstr "</" = [60, 47] := rfl
  simp [Content.render, cstr_append, ho, hc, he]

theorem render_ofText (text : Bytes) : (ofText text).render = text := by
  unfold ofText
  split
  · rename_i h
    exact h.symm
  · simp [Content.render]

theorem render_leaf (tag : String) (text : Bytes) (next : Content) :
    (leaf tag text next).render =
      cstr ("<" ++ tag ++ ">") ++ (text ++ (cstr ("</" ++ tag ++ ">") ++ next.render)) := by
  rw [leaf, render_element, render_ofText, cstr_append ("<" ++ tag)]
  simp [renderAttrs]

/-- `xmlOpen` and what follows it, as a message. -/
theorem messageText_eq (sender receiver : EntityType) (item : Content) :
    messageText sender receiver item = xmlOpen sender receiver ++
      (item.render ++ cstr "</luoyun>") := by
  delta messageText xmlOpen xmlDeclaration
  simp only [message, render_element, render_empty, render_nil, renderAttrs_cons, renderAttrs_nil,
    List.append_assoc, List.nil_append, List.append_nil, cstr_cat, String.reduceAppend]

/-- A message that fits is the text of its template. -/
theorem xmlFits_eq {size : Nat} {text text' : Bytes} (h : xmlFits size text = some text') :
    text' = text := by
  unfold xmlFits at h
  split at h
  · exact absurd h (by simp)
  · exact (Option.some.inj h).symm

theorem xmlFits_ne {size : Nat} {text text' : Bytes}
    (h : xmlFits size text = some text') : text' ≠ [] := by
  unfold xmlFits at h
  split at h
  · exact absurd h (by simp)
  · rename_i hfits
    obtain rfl := Option.some.inj h
    exact (not_or.mp hfits).1

theorem xmlFits_length {size : Nat} {text text' : Bytes} (h : xmlFits size text = some text') :
    text'.length < size := by
  unfold xmlFits at h
  split at h
  · exact absurd h (by simp)
  · rename_i hfits
    obtain rfl := Option.some.inj h
    exact Nat.not_le.mp fun hle => hfits (.inr hle)

/-! ## Looking a field up -/

/-- The text of an element. -/
def elementText (text : Bytes) : Option Bytes := if text = [] then none else some text

theorem elementText_of_ne {text : Bytes} (h : text ≠ []) : elementText text = some text := if_neg h

theorem elementText_eq_none {text : Bytes} : elementText text = none ↔ text = [] := by
  unfold elementText
  split <;> simp_all

theorem xpathText_leaf {root : XmlNode} {path : List Bytes} {tag text : Bytes}
    (h : xpath path root = some (.element tag [] (toNodes (ofText text)))) :
    xpathText root path = elementText text := by
  unfold xpathText elementText ofText at *
  rw [h]
  by_cases ht : text = []
  · simp only [if_pos ht]
    rfl
  · simp only [if_neg ht]
    rfl

theorem xpathProp_node {root : XmlNode} {path : List Bytes} {tag key value : Bytes} {attrs : Attrs}
    {children : List XmlNode} (h : xpath path root = some (.element tag attrs children))
    (hkey : attrs.find? (fun a => a.1 == key) = some (key, value)) :
    xpathProp root path key = some value := by
  rw [xpathProp, h, Option.bind_some, prop, hkey, Option.map_some]

/-- A number always has a text. -/
theorem xpathText_dec {root : XmlNode} {path : List Bytes} {tag : Bytes} {x : Int}
    (h : xpath path root = some (.element tag [] (toNodes (ofText (dec x))))) :
    xpathText root path = some (dec x) := by
  rw [xpathText_leaf h, elementText_of_ne (dec_ne_nil x)]

/-! ## Numbers in `unsigned int` fields -/

/-- A value of C type `unsigned int`. -/
def IsUInt32 (x : Int) : Prop := 0 ≤ x ∧ x < 2 ^ 32

instance (x : Int) : Decidable (IsUInt32 x) := inferInstanceAs (Decidable (_ ∧ _))

theorem atou_dec {x : Int} (h : IsUInt32 x) : atou (dec x) = x := by
  obtain ⟨h0, h1⟩ := h
  rw [atou, atoi, atol_dec h0 (by omega)]
  unfold toUInt32 toInt32
  omega

/-- `%d` prints a large value as a negative one, which is the same value in an unsigned field. -/
theorem atou_decU {x : Int} (h : IsUInt32 x) : atou (decU x) = x := by
  obtain ⟨h0, h1⟩ := h
  have hx : IsInt32 (toInt32 x) := by
    unfold IsInt32 toInt32
    omega
  rw [atou, decU, atoi_dec_int hx]
  unfold toUInt32 toInt32
  omega

/-! ## What is plain -/

-- the bytes of the text are gone through, and not all bytes there are
instance (name : Bytes) : Decidable (PlainName name) :=
  haveI : Decidable (∀ b ∈ name, isNameByte b = true) := List.decidableBAll _ _
  inferInstanceAs (Decidable (_ ∧ _ ∧ _))

instance (text : Bytes) : Decidable (PlainText text) :=
  haveI : Decidable (∀ b ∈ text, isCharByte b = true) := List.decidableBAll _ _
  inferInstanceAs (Decidable (_ ∧ _))

theorem plainText_of_not_mem {text : Bytes} (h : ∀ b ∈ text, isCharByte b = true)
    (hend : (93 : UInt8) ∉ text) :
    PlainText text := ⟨h, fun hin => hend (hin.subset (by decide))⟩

theorem plainText_nil : PlainText [] :=
  plainText_of_not_mem (fun _ hb => absurd hb List.not_mem_nil) List.not_mem_nil

/-- Digits and the minus sign stand for themselves wherever they are. -/
theorem dec_bytes (x : Int) : ∀ b ∈ dec x, isValueByte b = true ∧ isCharByte b = true ∧ b ≠ 93 := by
  intro b hb
  rcases mem_dec hb with rfl | hdigit
  · decide
  · grind [isValueByte, isCharByte, isDigit]

theorem dec_plain (x : Int) : PlainText (dec x) :=
  plainText_of_not_mem (fun b hb => (dec_bytes x b hb).2.1) fun hin => (dec_bytes x 93 hin).2.2 rfl

theorem plainAttrs_nil : PlainAttrs [] := ⟨fun _ h => absurd h List.not_mem_nil, List.nodup_nil⟩

theorem plainAttrs_one {key : Bytes} (hkey : PlainName key) (x : Int) :
    PlainAttrs [(key, dec x)] := by
  refine ⟨?_, List.nodup_cons.mpr ⟨List.not_mem_nil, List.nodup_nil⟩⟩
  intro a ha
  rw [List.mem_singleton.mp ha]
  exact ⟨hkey, fun b hb => (dec_bytes x b hb).1⟩

theorem plainAttrs_two {key key' : Bytes} (hkey : PlainName key)
    (hkey' : PlainName key') (hne : key ≠ key')
    (x x' : Int) : PlainAttrs [(key, dec x), (key', dec x')] := by
  have hx := plainAttrs_one hkey x
  have hx' := plainAttrs_one hkey' x'
  refine ⟨List.forall_mem_cons.mpr ⟨hx.1 _ (List.mem_singleton_self _), hx'.1⟩, ?_⟩
  exact List.nodup_cons.mpr ⟨fun hmem => hne (List.mem_singleton.mp hmem), hx'.2⟩

/-- The one attribute that is not a number. -/
theorem plainAttrs_required : PlainAttrs [(cstr "required", cstr "yes")] := by
  have hvalue : (cstr "yes").all isValueByte = true := by decide
  refine ⟨?_, List.nodup_cons.mpr ⟨List.not_mem_nil, List.nodup_nil⟩⟩
  intro a ha
  rw [List.mem_singleton.mp ha]
  exact ⟨by decide, List.all_eq_true.mp hvalue⟩

theorem leaf_plain {tag : String} {text : Bytes} {next : Content} (hname : PlainName (cstr tag))
    (htext : PlainText text) (hnext : next.Plain) : (leaf tag text next).Plain := by
  refine ⟨hname, plainAttrs_nil, ?_, hnext⟩
  unfold ofText
  split
  · trivial
  · rename_i hne
    exact ⟨hne, htext, rfl, trivial⟩

theorem requestItem_plain {id action : Int} {reply parameters : Content} (hreply : reply.Plain)
    (hparam : parameters.Plain) : (requestItem id action reply parameters).Plain :=
  ⟨by decide, plainAttrs_two (by decide) (by decide) (by decide) _ _,
    ⟨by decide, plainAttrs_required, hreply, by decide, plainAttrs_nil, hparam, trivial⟩, trivial⟩

theorem responseItem_plain {id status : Int} {body : Content} (h : body.Plain) :
    (responseItem id status body).Plain :=
  ⟨by decide, plainAttrs_two (by decide) (by decide) (by decide) _ _, h, trivial⟩

theorem message_plain {item : Content} (sender receiver : EntityType) (h : item.Plain) :
    (Content.element (cstr "luoyun") [] (message sender receiver item) .nil).Plain := by
  have hentity : ∀ x, PlainAttrs [(cstr "entity", dec x)] := plainAttrs_one (by decide)
  exact ⟨by decide, plainAttrs_nil, ⟨by decide, hentity _, by decide, hentity _, h⟩, trivial⟩

/-- A plain message is a C string. -/
theorem zero_not_mem_messageText {item : Content} (sender receiver : EntityType) (h : item.Plain) :
    (0 : UInt8) ∉ messageText sender receiver item := by
  have hdecl : (0 : UInt8) ∉ xmlDeclaration := by decide
  exact fun hmem => (List.mem_append.mp hmem).elim hdecl
    (Content.zero_not_mem_render (message_plain sender receiver h))

/-- **A plain message is read as it was written.** -/
theorem read_message {reader : XmlReader} (hr : ReadsPlain reader) (sender receiver : EntityType)
    {item : Content} (h : item.Plain) :
    reader (messageText sender receiver item) = some (messageRoot sender receiver item) :=
  hr _ _ _ (message_plain sender receiver h)

end LuoYun
