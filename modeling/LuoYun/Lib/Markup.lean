import Mathlib.Data.List.Basic
import Mathlib.Data.List.Infix
import Mathlib.Tactic.Common

/-!
# Plain markup

The part of XML that a program writes who pastes texts into a template: elements with attributes,
and character data between them. Names are lower case letters and digits, an attribute stands after
one blank with its value in double quotes, and there are no references, comments, processing
instructions or CDATA sections.

`Content` keeps what the text of a document does not share with its meaning, namely which elements
are written as an empty tag, so that `render` is a function. `read` takes the text apart again.
-/

namespace LuoYun.Markup

/-- Attributes in the order in which they are written. -/
abbrev Attrs := List (List UInt8 × List UInt8)

/-- Elements and character data, each with what follows it. -/
inductive Content where
  | nil
  | chars (text : List UInt8) (next : Content)
  /-- An element written as `<tag/>`. -/
  | empty (tag : List UInt8) (attrs : Attrs) (next : Content)
  | element (tag : List UInt8) (attrs : Attrs) (body next : Content)
  deriving DecidableEq, Repr

/-! ## Which content is plain -/

def isLetter (b : UInt8) : Bool := decide (97 ≤ b) && decide (b ≤ 122)

def isNameByte (b : UInt8) : Bool := isLetter b || (decide (48 ≤ b) && decide (b ≤ 57))

/-- A byte that stands for itself in character data: a tab, a line feed, or an ASCII character other
than `&` and `<`. -/
def isCharByte (b : UInt8) : Bool :=
  b == 9 || b == 10 || (decide (32 ≤ b) && decide (b < 128) && b != 38 && b != 60)

/-- A byte that stands for itself in a quoted value. -/
def isValueByte (b : UInt8) : Bool :=
  decide (32 ≤ b) && decide (b < 128) && b != 34 && b != 38 && b != 60

/-- A name begins with a letter. Names that begin with `xml` have a meaning of their own. -/
def PlainName (name : List UInt8) : Prop :=
  name.head?.any isLetter = true ∧ (∀ b ∈ name, isNameByte b = true) ∧ ¬ [120, 109, 108] <+: name

/-- Text that is read as it is written. It may not contain the end of a CDATA section. -/
def PlainText (text : List UInt8) : Prop :=
  (∀ b ∈ text, isCharByte b = true) ∧ ¬ [93, 93, 62] <:+: text

/-- No attribute is given twice. -/
def PlainAttrs (attrs : Attrs) : Prop :=
  (∀ a ∈ attrs, PlainName a.1 ∧ ∀ b ∈ a.2, isValueByte b = true) ∧ (attrs.map Prod.fst).Nodup

namespace Content

/-- Character data comes first. -/
def startsWithChars : Content → Bool
  | chars _ _ => true
  | _ => false

/-- Character data is not empty, and two pieces of it do not follow each other. -/
def Plain : Content → Prop
  | nil => True
  | chars text next => text ≠ [] ∧ PlainText text ∧ next.startsWithChars = false ∧ next.Plain
  | empty tag attrs next => PlainName tag ∧ PlainAttrs attrs ∧ next.Plain
  | element tag attrs body next => PlainName tag ∧ PlainAttrs attrs ∧ body.Plain ∧ next.Plain

end Content

/-! ## Writing -/

def renderAttr (a : List UInt8 × List UInt8) : List UInt8 :=
  32 :: (a.1 ++ 61 :: 34 :: (a.2 ++ [34]))

def renderAttrs (attrs : Attrs) : List UInt8 := attrs.flatMap renderAttr

/-- The text of some content. -/
def Content.render : Content → List UInt8
  | nil => []
  | chars text next => text ++ next.render
  | empty tag attrs next => 60 :: (tag ++ (renderAttrs attrs ++ 47 :: 62 :: next.render))
  | element tag attrs body next =>
    60 ::
      (tag ++ (renderAttrs attrs ++ 62 :: (body.render ++ 60 :: 47 :: (tag ++ 62 :: next.render))))

/-- Plain content is written in bytes other than zero. -/
theorem Content.zero_not_mem_render {c : Content} (h : c.Plain) : (0 : UInt8) ∉ c.render := by
  have hname : ∀ {tag : List UInt8}, PlainName tag → (0 : UInt8) ∉ tag :=
    fun htag hmem => absurd (htag.2.1 0 hmem) (by decide)
  have hattrs : ∀ {attrs : Attrs}, PlainAttrs attrs → (0 : UInt8) ∉ renderAttrs attrs := by
    intro attrs ha hmem
    obtain ⟨a, hin, hmem⟩ := List.mem_flatMap.mp hmem
    obtain ⟨hkey, hvalue⟩ := ha.1 a hin
    have hzero : (0 : UInt8) ∉ a.2 := fun hv => absurd (hvalue 0 hv) (by decide)
    simp [renderAttr, hname hkey, hzero] at hmem
  induction c with
  | nil => exact List.not_mem_nil
  | chars text next ih =>
    obtain ⟨-, htext, -, hnext⟩ := h
    have hzero : (0 : UInt8) ∉ text := fun hmem => absurd (htext.1 0 hmem) (by decide)
    simp [Content.render, hzero, ih hnext]
  | empty tag attrs next ih =>
    obtain ⟨htag, ha, hnext⟩ := h
    simp [Content.render, hname htag, hattrs ha, ih hnext]
  | element tag attrs body next ihbody ih =>
    obtain ⟨htag, ha, hbody, hnext⟩ := h
    simp [Content.render, hname htag, hattrs ha, ihbody hbody, ih hnext]

/-! ## Reading -/

/-- Attributes, as many as there are. -/
def readAttrs : Nat → List UInt8 → Option (Attrs × List UInt8)
  | fuel + 1, 32 :: s =>
    match s.dropWhile isNameByte with
    | 61 :: 34 :: v =>
      match v.dropWhile isValueByte with
      | 34 :: rest =>
        (readAttrs fuel rest).map fun r =>
          ((s.takeWhile isNameByte, v.takeWhile isValueByte) :: r.1, r.2)
      | _ => none
    | _ => none
  | _, s => some ([], s)

/-- A tag after its `<`: the name, the attributes, and whether it is an empty tag. -/
def readTag (s : List UInt8) : Option ((List UInt8 × Attrs × Bool) × List UInt8) :=
  match readAttrs s.length (s.dropWhile isNameByte) with
  | some (attrs, 47 :: 62 :: rest) => some ((s.takeWhile isNameByte, attrs, true), rest)
  | some (attrs, 62 :: rest) => some ((s.takeWhile isNameByte, attrs, false), rest)
  | _ => none

/-- What follows the end tag of this name. -/
def readEnd (tag : List UInt8) : List UInt8 → Option (List UInt8)
  | 60 :: 47 :: s => if (tag ++ [62]).isPrefixOf s then some (s.drop (tag.length + 1)) else none
  | _ => none

/-- Content up to an end tag or the end of the text. -/
def read : Nat → List UInt8 → Option (Content × List UInt8)
  | 0, _ => none
  | _ + 1, [] => some (.nil, [])
  | _ + 1, 60 :: 47 :: s => some (.nil, 60 :: 47 :: s)
  | fuel + 1, 60 :: s =>
    match readTag s with
    | none => none
    | some ((tag, attrs, true), s) => (read fuel s).map fun r => (.empty tag attrs r.1, r.2)
    | some ((tag, attrs, false), s) =>
      (read fuel s).bind fun body => (readEnd tag body.2).bind fun s =>
        (read fuel s).map fun r => (.element tag attrs body.1 r.1, r.2)
  | fuel + 1, s =>
    if s.takeWhile isCharByte = [] then none
    else (read fuel (s.dropWhile isCharByte)).map fun r =>
      (.chars (s.takeWhile isCharByte) r.1, r.2)

/-- The content of a whole text. -/
def document (s : List UInt8) : Option Content :=
  match read (s.length + 1) s with
  | some (c, []) => some c
  | _ => none

/-! ## Reading what was written -/

theorem takeWhile_stop {p : UInt8 → Bool} {a r : List UInt8} {b : UInt8} (ha : ∀ x ∈ a, p x = true)
    (hb : p b = false) : (a ++ b :: r).takeWhile p = a := by
  rw [List.takeWhile_append_of_pos ha, List.takeWhile_cons, hb]
  simp

theorem dropWhile_stop {p : UInt8 → Bool} {a r : List UInt8} {b : UInt8} (ha : ∀ x ∈ a, p x = true)
    (hb : p b = false) : (a ++ b :: r).dropWhile p = b :: r := by
  rw [List.dropWhile_append_of_pos ha, List.dropWhile_cons, hb]
  simp

/-- After the attributes comes the end of the tag. -/
theorem readAttrs_render {attrs : Attrs} {b : UInt8} (rest : List UInt8) (hb : b ≠ 32)
    (h : ∀ a ∈ attrs, PlainName a.1 ∧ ∀ b ∈ a.2, isValueByte b = true) :
    ∀ {fuel : Nat}, attrs.length ≤ fuel →
      readAttrs fuel (renderAttrs attrs ++ b :: rest) = some (attrs, b :: rest) := by
  induction attrs with
  | nil =>
    intro fuel _
    cases fuel with
    | zero => rfl
    | succ fuel =>
      rw [renderAttrs, List.flatMap_nil, List.nil_append, readAttrs]
      intro _ _ _ he
      exact hb (List.cons.inj he).1
  | cons a attrs ih =>
    intro fuel hlen
    obtain ⟨fuel, rfl⟩ : ∃ f, fuel = f + 1 :=
      ⟨fuel - 1, by simp only [List.length_cons] at hlen; omega⟩
    obtain ⟨hname, hvalue⟩ := h a (List.mem_cons_self ..)
    have hrest := @ih (fun a ha => h a (List.mem_cons_of_mem _ ha)) fuel
      (Nat.le_of_succ_le_succ hlen)
    have hr : renderAttrs (a :: attrs) ++ b :: rest =
        32 :: (a.1 ++ 61 :: 34 :: (a.2 ++ 34 :: (renderAttrs attrs ++ b :: rest))) := by
      simp [renderAttrs, renderAttr]
    rw [hr, readAttrs, dropWhile_stop hname.2.1 rfl, takeWhile_stop hname.2.1 rfl]
    simp only
    rw [dropWhile_stop hvalue rfl, takeWhile_stop hvalue rfl]
    simp only
    rw [hrest]
    rfl

theorem readEnd_tag (tag rest : List UInt8) :
    readEnd tag (60 :: 47 :: (tag ++ 62 :: rest)) = some rest := by
  have hsplit : tag ++ 62 :: rest = (tag ++ [62]) ++ rest := by simp
  rw [readEnd, hsplit, if_pos (List.isPrefixOf_iff_prefix.mpr (List.prefix_append ..))]
  have hlen : (tag ++ [62]).length = tag.length + 1 := by simp
  rw [← hlen, List.drop_left]

/-- Where content ends. -/
def Ends (rest : List UInt8) : Prop := rest = [] ∨ ∃ s, rest = 60 :: 47 :: s

theorem read_ends {rest : List UInt8} (h : Ends rest) (fuel : Nat) :
    read (fuel + 1) rest = some (.nil, rest) := by
  rcases h with rfl | ⟨s, rfl⟩ <;> rfl

theorem length_le_renderAttrs (attrs : Attrs) : attrs.length ≤ (renderAttrs attrs).length := by
  induction attrs with
  | nil => simp
  | cons a attrs ih =>
    have h : (renderAttrs (a :: attrs)).length =
        (renderAttr a).length + (renderAttrs attrs).length := by
      simp [renderAttrs]
    rw [List.length_cons, h, renderAttr, List.length_cons]
    omega

/-- The name and the attributes of a tag, and what comes after them. -/
theorem readTag_parts {tag : List UInt8} {attrs : Attrs} {b : UInt8} (rest : List UInt8)
    (hname : PlainName tag) (hattrs : PlainAttrs attrs) (hb : b ≠ 32) (hb' : isNameByte b = false) :
    let s := tag ++ (renderAttrs attrs ++ b :: rest)
    readAttrs s.length (s.dropWhile isNameByte) = some (attrs, b :: rest) ∧
      s.takeWhile isNameByte = tag := by
  intro s
  obtain ⟨c, r, hc, hcname⟩ : ∃ c r, renderAttrs attrs ++ b :: rest = c :: r ∧
      isNameByte c = false := by
    cases attrs with
    | nil => exact ⟨b, rest, rfl, hb'⟩
    | cons a attrs => exact ⟨32, _, rfl, rfl⟩
  have hlen : attrs.length ≤ s.length := by
    have := length_le_renderAttrs attrs
    simp only [s, List.length_append]
    omega
  have hdrop : s.dropWhile isNameByte = renderAttrs attrs ++ b :: rest := by
    simp only [s]
    rw [hc, dropWhile_stop hname.2.1 hcname]
  have htake : s.takeWhile isNameByte = tag := by
    simp only [s]
    rw [hc, takeWhile_stop hname.2.1 hcname]
  rw [hdrop]
  exact ⟨readAttrs_render rest hb hattrs.1 hlen, htake⟩

theorem readTag_empty {tag : List UInt8} {attrs : Attrs} (rest : List UInt8) (hname : PlainName tag)
    (hattrs : PlainAttrs attrs) :
    readTag (tag ++ (renderAttrs attrs ++ 47 :: 62 :: rest)) = some ((tag, attrs, true), rest) := by
  obtain ⟨hread, htake⟩ := readTag_parts (b := 47) (62 :: rest) hname hattrs (by decide) rfl
  rw [readTag, hread, htake]
  rfl

theorem readTag_open {tag : List UInt8} {attrs : Attrs} (rest : List UInt8) (hname : PlainName tag)
    (hattrs : PlainAttrs attrs) :
    readTag (tag ++ (renderAttrs attrs ++ 62 :: rest)) = some ((tag, attrs, false), rest) := by
  obtain ⟨hread, htake⟩ := readTag_parts (b := 62) rest hname hattrs (by decide) rfl
  rw [readTag, hread, htake]
  rfl

/-- A name does not begin with a slash, so a tag is not taken for an end tag. -/
theorem read_tag {tag : List UInt8} (s : List UInt8) (hname : PlainName tag) (fuel : Nat) :
    read (fuel + 1) (60 :: (tag ++ s)) =
      match readTag (tag ++ s) with
      | none => none
      | some ((tag, attrs, true), s) => (read fuel s).map fun r => (.empty tag attrs r.1, r.2)
      | some ((tag, attrs, false), s) =>
        (read fuel s).bind fun body => (readEnd tag body.2).bind fun s =>
          (read fuel s).map fun r => (.element tag attrs body.1 r.1, r.2) := by
  rw [read.eq_4]
  intro s' he
  obtain ⟨b, tag, rfl⟩ : ∃ b t, tag = b :: t := by
    cases tag with
    | nil => exact absurd hname.1 (by decide)
    | cons b t => exact ⟨b, t, rfl⟩
  have hb : b = 47 := (List.cons.inj he).1
  have hslash := hname.2.1 b (List.mem_cons_self ..)
  rw [hb] at hslash
  exact absurd hslash (by decide)

/-- Character data ends at a tag. -/
theorem stops {c : Content} {rest : List UInt8} (h : c.startsWithChars = false)
    (hrest : Ends rest) :
    c.render ++ rest = [] ∨ ∃ s, c.render ++ rest = 60 :: s := by
  cases c with
  | nil =>
    rcases hrest with rfl | ⟨s, rfl⟩
    · exact .inl rfl
    · exact .inr ⟨_, rfl⟩
  | chars text next => exact absurd h (by simp [Content.startsWithChars])
  | empty tag attrs next => exact .inr ⟨_, rfl⟩
  | element tag attrs body next => exact .inr ⟨_, rfl⟩

theorem read_chars {text s : List UInt8} (hne : text ≠ []) (htext : ∀ b ∈ text, isCharByte b = true)
    (hs : s = [] ∨ ∃ r, s = 60 :: r) (fuel : Nat) :
    read (fuel + 1) (text ++ s) = (read fuel s).map fun r => (.chars text r.1, r.2) := by
  have htake : (text ++ s).takeWhile isCharByte = text := by
    rcases hs with rfl | ⟨r, rfl⟩
    · rw [List.takeWhile_append_of_pos htext, List.takeWhile_nil, List.append_nil]
    · exact takeWhile_stop htext rfl
  have hdrop : (text ++ s).dropWhile isCharByte = s := by
    rcases hs with rfl | ⟨r, rfl⟩
    · rw [List.dropWhile_append_of_pos htext, List.dropWhile_nil]
    · exact dropWhile_stop htext rfl
  obtain ⟨b, t, hb⟩ := List.exists_cons_of_ne_nil hne
  have hstart : text ++ s = b :: (t ++ s) := by rw [hb, List.cons_append]
  have hlt : b ≠ 60 := by
    intro he
    have := htext b (hb ▸ List.mem_cons_self ..)
    rw [he] at this
    exact absurd this (by decide)
  rw [read.eq_5, htake, hdrop, if_neg hne]
  · rw [hstart]
    exact List.cons_ne_nil _ _
  · intro s' he
    rw [hstart] at he
    exact hlt (List.cons.inj he).1
  · intro s' he
    rw [hstart] at he
    exact hlt (List.cons.inj he).1

/-- **What was written is read back**, up to an end tag or to the end of the text. -/
theorem read_render {c : Content} (h : c.Plain) :
    ∀ {fuel : Nat} {rest : List UInt8}, Ends rest → c.render.length < fuel →
      read fuel (c.render ++ rest) = some (c, rest) := by
  induction c with
  | nil =>
    intro fuel rest hrest hfuel
    obtain ⟨fuel, rfl⟩ : ∃ f, fuel = f + 1 := ⟨fuel - 1, by omega⟩
    exact read_ends hrest fuel
  | chars text next ih =>
    intro fuel rest hrest hfuel
    obtain ⟨hne, htext, hnext, hplain⟩ := h
    obtain ⟨fuel, rfl⟩ : ∃ f, fuel = f + 1 := ⟨fuel - 1, by omega⟩
    have hpos := List.length_pos_of_ne_nil hne
    simp only [Content.render, List.length_append] at hfuel
    rw [Content.render, List.append_assoc, read_chars hne htext.1 (stops hnext hrest),
      ih hplain hrest (by omega)]
    rfl
  | empty tag attrs next ih =>
    intro fuel rest hrest hfuel
    obtain ⟨hname, hattrs, hplain⟩ := h
    obtain ⟨fuel, rfl⟩ : ∃ f, fuel = f + 1 := ⟨fuel - 1, by omega⟩
    simp only [Content.render, List.length_append, List.length_cons] at hfuel
    simp only [Content.render, List.cons_append, List.append_assoc]
    rw [read_tag _ hname, readTag_empty _ hname hattrs]
    simp only
    rw [ih hplain hrest (by omega)]
    rfl
  | element tag attrs body next ihbody ih =>
    intro fuel rest hrest hfuel
    obtain ⟨hname, hattrs, hbody, hplain⟩ := h
    obtain ⟨fuel, rfl⟩ : ∃ f, fuel = f + 1 := ⟨fuel - 1, by omega⟩
    simp only [Content.render, List.length_append, List.length_cons] at hfuel
    simp only [Content.render, List.cons_append, List.append_assoc]
    rw [read_tag _ hname, readTag_open _ hname hattrs]
    simp only
    rw [ihbody hbody (.inr ⟨_, rfl⟩) (by omega), Option.bind_some, readEnd_tag, Option.bind_some,
      ih hplain hrest (by omega)]
    rfl

theorem document_render {c : Content} (h : c.Plain) : document c.render = some c := by
  have hread := read_render h (.inl rfl) (Nat.lt_succ_self _)
  rw [List.append_nil] at hread
  rw [document, hread]

end LuoYun.Markup
