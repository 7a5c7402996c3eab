import LuoYun.Web.Url
import Mathlib.Data.List.TakeWhile

/-!
# What becomes of a query

A link should keep what it does not set. `Rewrites` says what that means: the parameters of a query
are all of its fields, with blank values too, and everything behind the first question mark is the
query. The functions meet it exactly if there is no second question mark, no blank value to lose,
and, for `urlupdate`, no key to be set that occurs twice.
-/

namespace LuoYun.Web

open Query

/-- The part of a URI before the query. -/
def uriPath (uri : Bytes) : Bytes := uri.takeWhile (· ≠ 63)

/-- The text of the query. -/
def uriQuery (uri : Bytes) : Bytes := (uri.dropWhile (· ≠ 63)).drop 1

/-- The parameters of the query. -/
def uriParams (uri : Bytes) : List (Bytes × Bytes) := parseQsl true (uriQuery uri)

/-- The parameter is there, with this value. -/
def Gives (uri : Bytes) (x : Bytes × Bytes) : Prop :=
  (∃ y ∈ uriParams uri, y.1 = x.1) ∧ ∀ y ∈ uriParams uri, y.1 = x.1 → y.2 = x.2

/-- `out` is `uri` with some parameters set, and touched at no other than the given keys. -/
structure Rewrites (uri out : Bytes) (touched : List Bytes)
    (settings : List (Bytes × Bytes)) : Prop where
  path : uriPath out = uriPath uri
  others : (uriParams out).filter (fun x => x.1 ∉ touched) =
    (uriParams uri).filter fun x => x.1 ∉ touched
  set : ∀ x ∈ settings, Gives out x

/-- `page_url` does what it is for. -/
def PageOk (uri : Bytes) (cur : Int) : Prop :=
  ∃ out, pageUrl uri cur = some out ∧ Rewrites uri out [keyP] [(keyP, dec cur)]

/-- `psize_url` does what it is for: a page number goes back to the first page. -/
def PsizeOk (uri : Bytes) (cur : Int) : Prop :=
  ∃ out, psizeUrl uri cur = some out ∧ Rewrites uri out [keySepa, keyP] [(keySepa, dec cur)] ∧
    ((∃ x ∈ uriParams uri, x.1 = keyP) → Gives out (keyP, dec 1))

/-- `urlupdate` does what it is for. -/
def UpdateOk (uri : Bytes) (params : UrlParams) : Prop :=
  ∃ out, urlupdate uri params = some out ∧ Rewrites uri out params.keys params.kept ∧
    ∀ k ∈ params.droped, ∀ x ∈ uriParams out, x.1 ≠ k

/-- There is one question mark at most. -/
def OneMark (uri : Bytes) : Prop := uri.count 63 ≤ 1

instance (uri : Bytes) : Decidable (OneMark uri) := inferInstanceAs (Decidable (_ ≤ _))

/-- No parameter has a blank value, but for those with these keys. -/
def NoBlank (uri : Bytes) (touched : List Bytes) : Prop :=
  ∀ x ∈ uriParams uri, x.1 ∉ touched → x.2 ≠ []

/-- How often a key occurs with a value. -/
def valued (uri k : Bytes) : Nat := ((uriParams uri).filter fun x => x.1 = k ∧ x.2 ≠ []).length

/-! ## Taking a URI apart -/

theorem uri_eq {uri : Bytes} (h : 63 ∈ uri) : uri = uriPath uri ++ 63 :: uriQuery uri := by
  have hcut :=
    (List.takeWhile_append_dropWhile (p := fun b : UInt8 => decide (b ≠ 63)) (l := uri)).symm
  cases hd : uri.dropWhile (· ≠ 63) with
  | nil =>
    have hall := List.dropWhile_eq_nil_iff.mp hd 63 h
    exact absurd hall (by decide)
  | cons b q =>
    have hb : b = 63 := by
      have hhead := List.head?_dropWhile_not (fun b : UInt8 => decide (b ≠ 63)) uri
      rw [hd] at hhead
      simpa using hhead
    rw [hd, hb] at hcut
    rw [uriQuery, hd]
    exact hcut

theorem not_mem_uriPath (uri : Bytes) : 63 ∉ uriPath uri := by
  intro h
  exact absurd (List.mem_takeWhile_imp h) (by decide)

theorem uriPath_of_not_mem {uri : Bytes} (h : 63 ∉ uri) : uriPath uri = uri :=
  List.takeWhile_eq_self_iff.mpr fun _ hb => decide_eq_true fun he => h (he ▸ hb)

theorem uriParams_of_not_mem {uri : Bytes} (h : 63 ∉ uri) : uriParams uri = [] := by
  have hnil : uri.dropWhile (· ≠ 63) = [] :=
    List.dropWhile_eq_nil_iff.mpr fun b hb => decide_eq_true fun he => h (he ▸ hb)
  rw [uriParams, uriQuery, hnil]
  decide

/-- Unpacking succeeds with one question mark. -/
theorem splitUri_eq {uri : Bytes} (h : 63 ∈ uri) :
    splitUri uri = if uri.count 63 ≤ 1 then some (uriPath uri, uriQuery uri) else none := by
  have hcount : uri.count 63 = (uriQuery uri).count 63 + 1 := by
    conv_lhs => rw [uri_eq h]
    rw [List.count_append, List.count_cons_self, List.count_eq_zero.mpr (not_mem_uriPath uri)]
    omega
  have hpos := List.count_pos_iff (a := (63 : UInt8)) (l := uriQuery uri)
  unfold splitUri
  cases hd : uri.dropWhile (· ≠ 63) with
  | nil =>
    have hall := List.dropWhile_eq_nil_iff.mp hd 63 h
    exact absurd hall (by decide)
  | cons b q =>
    have hq : uriQuery uri = q := by rw [uriQuery, hd]; rfl
    rw [hq] at hcount hpos ⊢
    dsimp only
    by_cases hmem : 63 ∈ q
    · have := hpos.mpr hmem
      rw [if_pos hmem, if_neg (by omega)]
    · have := List.count_eq_zero.mpr hmem
      rw [if_neg hmem, if_pos (by omega)]
      rfl

/-- Putting a URI together. -/
theorem uriPath_joinUri {path : Bytes} (h : 63 ∉ path) (new : List (Bytes × Bytes)) :
    uriPath (joinUri path new) = path := by
  have hall : ∀ b ∈ path, decide (b ≠ 63) = true := fun b hb => decide_eq_true fun he => h (he ▸ hb)
  rw [uriPath, joinUri, List.takeWhile_append_of_pos hall, List.takeWhile_cons_of_neg (by decide),
    List.append_nil]

theorem uriParams_joinUri {path : Bytes} (h : 63 ∉ path) (new : List (Bytes × Bytes)) :
    uriParams (joinUri path new) = new := by
  have hall : ∀ b ∈ path, decide (b ≠ 63) = true := fun b hb => decide_eq_true fun he => h (he ▸ hb)
  rw [uriParams, uriQuery, joinUri, List.dropWhile_append_of_pos hall,
    List.dropWhile_cons_of_neg (by decide), List.drop_one, List.tail_cons, parseQsl_urlencode]

/-- A number needs no quotation. -/
theorem isSafe_of_mem_dec {x : Int} : ∀ b ∈ dec x, isSafe b = true := by
  intro b hb
  rcases mem_dec hb with rfl | hd
  · rfl
  · unfold isDigit at hd
    unfold isSafe
    rw [hd]
    rfl

/-- A single setting behind a path. -/
theorem joinUri_single (path : Bytes) {k : Bytes} (hk : ∀ b ∈ k, isSafe b = true) (cur : Int) :
    path ++ 63 :: k ++ 61 :: dec cur = joinUri path [(k, dec cur)] := by
  rw [joinUri, urlencode, List.map_singleton, List.intercalate_singleton, field,
    quotePlus_eq_self hk, quotePlus_eq_self isSafe_of_mem_dec, List.append_assoc]
  rfl

/-! ## Filters and maps -/

theorem filter_eq_iff_noBlank {uri : Bytes} {touched : List Bytes} :
    ((uriParams uri).filter (fun x => x.2 ≠ [])).filter (fun x => x.1 ∉ touched) =
      (uriParams uri).filter (fun x => x.1 ∉ touched) ↔ NoBlank uri touched := by
  rw [List.filter_comm, List.filter_eq_self]
  unfold NoBlank
  constructor
  · intro h x hx hn
    exact of_decide_eq_true (h x (List.mem_filter.mpr ⟨hx, decide_eq_true hn⟩))
  · intro h x hx
    obtain ⟨hx, hn⟩ := List.mem_filter.mp hx
    exact decide_eq_true (h x hx (of_decide_eq_true hn))

/-- A map that changes only what is filtered out. -/
theorem filter_map_touched {touched : List Bytes} {f : Bytes × Bytes → Bytes × Bytes}
    (hkey : ∀ x, (f x).1 = x.1) (hsame : ∀ x : Bytes × Bytes, x.1 ∉ touched → f x = x)
    (l : List (Bytes × Bytes)) :
    (l.map f).filter (fun x => x.1 ∉ touched) = l.filter fun x => x.1 ∉ touched := by
  induction l with
  | nil => rfl
  | cons x l ih =>
    rw [List.map_cons]
    by_cases hx : x.1 ∈ touched
    · rw [List.filter_cons_of_neg (by simpa [hkey] using hx),
        List.filter_cons_of_neg (by simpa using hx), ih]
    · rw [List.filter_cons_of_pos (by simpa [hkey] using hx),
        List.filter_cons_of_pos (by simpa using hx), ih, hsame x hx]

/-! ## Setting parameters one by one -/

/-- The parameters without the blank ones. -/
def valuedParams (uri : Bytes) : List (Bytes × Bytes) := (uriParams uri).filter fun x => x.2 ≠ []

theorem parseQsl_uriQuery (uri : Bytes) : parseQsl false (uriQuery uri) = valuedParams uri :=
  parseQsl_false _

/-- What both functions of `pagination.py` make of the parameters. -/
def setParams (f : Bytes × Bytes → Bytes × Bytes) (k v : Bytes) (old : List (Bytes × Bytes)) :
    List (Bytes × Bytes) :=
  if old.any fun x => x.1 = k then old.map f else old.map f ++ [(k, v)]

variable {uri : Bytes} {touched : List Bytes} {f : Bytes × Bytes → Bytes × Bytes} {k v : Bytes}

theorem setParams_others (hk : k ∈ touched) (hkey : ∀ x, (f x).1 = x.1)
    (hsame : ∀ x : Bytes × Bytes, x.1 ∉ touched → f x = x) (old : List (Bytes × Bytes)) :
    (setParams f k v old).filter (fun x => x.1 ∉ touched) = old.filter fun x => x.1 ∉ touched := by
  unfold setParams
  split
  · exact filter_map_touched hkey hsame old
  · rw [List.filter_append, filter_map_touched hkey hsame,
      List.filter_cons_of_neg (by simpa using hk), List.filter_nil, List.append_nil]

theorem setParams_gives (hkey : ∀ x, (f x).1 = x.1)
    (hset : ∀ x : Bytes × Bytes, x.1 = k → (f x).2 = v) (old : List (Bytes × Bytes)) :
    (∃ y ∈ setParams f k v old, y.1 = k) ∧ ∀ y ∈ setParams f k v old, y.1 = k → y.2 = v := by
  have hmap : ∀ y ∈ old.map f, y.1 = k → y.2 = v := by
    intro y hy hyk
    obtain ⟨x, -, rfl⟩ := List.mem_map.mp hy
    rw [hkey] at hyk
    exact hset x hyk
  unfold setParams
  split
  · rename_i hany
    obtain ⟨x, hx, hxk⟩ := List.any_eq_true.mp hany
    exact ⟨⟨f x, List.mem_map_of_mem hx, (hkey x).trans (of_decide_eq_true hxk)⟩, hmap⟩
  · refine ⟨⟨(k, v), List.mem_append_right _ List.mem_cons_self, rfl⟩, ?_⟩
    intro y hy hyk
    rcases List.mem_append.mp hy with hy | hy
    · exact hmap y hy hyk
    · rw [List.mem_singleton.mp hy]

/-- **Rewriting keeps the rest** exactly if there is nothing blank in it. -/
theorem rewrites_setParams (hk : k ∈ touched) (hkey : ∀ x, (f x).1 = x.1)
    (hsame : ∀ x : Bytes × Bytes, x.1 ∉ touched → f x = x)
    (hset : ∀ x : Bytes × Bytes, x.1 = k → (f x).2 = v) :
    Rewrites uri (joinUri (uriPath uri) (setParams f k v (valuedParams uri))) touched [(k, v)] ↔
      NoBlank uri touched := by
  have hparams := uriParams_joinUri (not_mem_uriPath uri) (setParams f k v (valuedParams uri))
  rw [← filter_eq_iff_noBlank]
  constructor
  · intro h
    have hothers := h.others
    rw [hparams, setParams_others hk hkey hsame] at hothers
    exact hothers
  · intro h
    refine ⟨uriPath_joinUri (not_mem_uriPath uri) _, ?_, ?_⟩
    · rw [hparams, setParams_others hk hkey hsame]
      exact h
    · intro x hx
      rw [List.mem_singleton.mp hx, Gives, hparams]
      exact setParams_gives hkey hset _

/-- A URI without a query gets one. -/
theorem rewrites_single (h : 63 ∉ uri) (hk : k ∈ touched) :
    Rewrites uri (joinUri uri [(k, v)]) touched [(k, v)] := by
  have hparams := uriParams_joinUri h [(k, v)]
  refine ⟨by rw [uriPath_joinUri h, uriPath_of_not_mem h], ?_, ?_⟩
  · rw [hparams, uriParams_of_not_mem h, List.filter_cons_of_neg (by simpa using hk)]
  · intro x hx
    rw [List.mem_singleton.mp hx, Gives, hparams]
    simp

theorem oneMark_of_not_mem (h : 63 ∉ uri) : OneMark uri := by
  unfold OneMark
  rw [List.count_eq_zero.mpr h]
  omega

theorem noBlank_of_not_mem (h : 63 ∉ uri) : NoBlank uri touched := by
  intro x hx
  rw [uriParams_of_not_mem h] at hx
  cases hx

/-- What `page_url` makes of a parameter. -/
def setPage (cur : Int) (x : Bytes × Bytes) : Bytes × Bytes :=
  if x.1 = keyP then (x.1, dec cur) else x

theorem pageUrl_eq (h : 63 ∈ uri) (cur : Int) :
    pageUrl uri cur = if uri.count 63 ≤ 1 then
        some (joinUri (uriPath uri) (setParams (setPage cur) keyP (dec cur) (valuedParams uri)))
      else none := by
  unfold pageUrl
  rw [if_neg (not_not.mpr h), splitUri_eq h]
  by_cases hone : uri.count 63 ≤ 1
  · rw [if_pos hone, if_pos hone, ← parseQsl_uriQuery]
    rfl
  · rw [if_neg hone, if_neg hone]

theorem setPage_key (cur : Int) (x : Bytes × Bytes) : (setPage cur x).1 = x.1 := by
  unfold setPage
  split <;> rfl

theorem page_iff (uri : Bytes) (cur : Int) : PageOk uri cur ↔ OneMark uri ∧ NoBlank uri [keyP] := by
  have hrewrites : Rewrites uri
      (joinUri (uriPath uri) (setParams (setPage cur) keyP (dec cur) (valuedParams uri)))
      [keyP] [(keyP, dec cur)] ↔ NoBlank uri [keyP] :=
    rewrites_setParams List.mem_cons_self (setPage_key cur) (fun x hx => if_neg (by simpa using hx))
      (fun x hx => by rw [setPage, if_pos hx])
  unfold PageOk
  by_cases h : 63 ∈ uri
  · rw [pageUrl_eq h]
    by_cases hone : uri.count 63 ≤ 1
    · rw [if_pos hone, ← hrewrites]
      constructor
      · rintro ⟨out, hout, hr⟩
        obtain rfl := Option.some.inj hout
        exact ⟨hone, hr⟩
      · exact fun hr => ⟨_, rfl, hr.2⟩
    · rw [if_neg hone]
      constructor
      · rintro ⟨out, hout, -⟩
        cases hout
      · exact fun hr => absurd hr.1 hone
  · -- without a query the parameter is written out, and reads back as it is
    have hpage : pageUrl uri cur = some (joinUri uri [(keyP, dec cur)]) := by
      rw [pageUrl, if_pos h, ← joinUri_single uri (by decide +kernel) cur,
        List.append_assoc, List.append_assoc]
      rfl
    refine ⟨fun _ => ⟨oneMark_of_not_mem h, noBlank_of_not_mem h⟩, fun _ => ⟨_, hpage, ?_⟩⟩
    exact rewrites_single h List.mem_cons_self

/-- What `psize_url` makes of a parameter. -/
def setSize (cur : Int) (x : Bytes × Bytes) : Bytes × Bytes :=
  if x.1 = keySepa then (x.1, dec cur) else if x.1 = keyP then (x.1, dec 1) else x

theorem setSize_key (cur : Int) (x : Bytes × Bytes) : (setSize cur x).1 = x.1 := by
  unfold setSize
  split
  · rfl
  · split <;> rfl

theorem psizeUrl_eq (h : 63 ∈ uri) (cur : Int) :
    psizeUrl uri cur = if uri.count 63 ≤ 1 then
        some (joinUri (uriPath uri) (setParams (setSize cur) keySepa (dec cur) (valuedParams uri)))
      else none := by
  unfold psizeUrl
  rw [if_neg (not_not.mpr h), splitUri_eq h]
  by_cases hone : uri.count 63 ≤ 1
  · rw [if_pos hone, if_pos hone, ← parseQsl_uriQuery]
    rfl
  · rw [if_neg hone, if_neg hone]

/-- A page number that has a value goes back to the first page. -/
theorem setSize_gives (cur : Int) (old : List (Bytes × Bytes)) :
    ((∃ y ∈ setParams (setSize cur) keySepa (dec cur) old, y.1 = keyP) ∧
      ∀ y ∈ setParams (setSize cur) keySepa (dec cur) old, y.1 = keyP → y.2 = dec 1) ↔
        ∃ x ∈ old, x.1 = keyP := by
  have hne : keyP ≠ keySepa := by decide
  have hmem : ∀ y, y.1 = keyP →
      (y ∈ setParams (setSize cur) keySepa (dec cur) old ↔ y ∈ old.map (setSize cur)) := by
    intro y hy
    unfold setParams
    split
    · exact Iff.rfl
    · rw [List.mem_append, List.mem_singleton]
      constructor
      · rintro (h | rfl)
        · exact h
        · exact absurd hy.symm hne
      · exact .inl
  constructor
  · rintro ⟨⟨y, hy, hyp⟩, -⟩
    obtain ⟨x, hx, rfl⟩ := List.mem_map.mp ((hmem y hyp).mp hy)
    exact ⟨x, hx, (setSize_key cur x).symm.trans hyp⟩
  · rintro ⟨x, hx, hxp⟩
    have hkey : (setSize cur x).1 = keyP := (setSize_key cur x).trans hxp
    refine ⟨⟨setSize cur x, (hmem _ hkey).mpr (List.mem_map_of_mem hx), hkey⟩, ?_⟩
    intro y hy hyp
    obtain ⟨x, -, rfl⟩ := List.mem_map.mp ((hmem y hyp).mp hy)
    rw [setSize_key] at hyp
    rw [setSize, if_neg (by rw [hyp]; exact hne), if_pos hyp]

theorem psize_iff (uri : Bytes) (cur : Int) :
    PsizeOk uri cur ↔ OneMark uri ∧ NoBlank uri [keySepa, keyP] ∧
      ((∃ x ∈ uriParams uri, x.1 = keyP) → ∃ x ∈ uriParams uri, x.1 = keyP ∧ x.2 ≠ []) := by
  have hrewrites : Rewrites uri
      (joinUri (uriPath uri) (setParams (setSize cur) keySepa (dec cur) (valuedParams uri)))
      [keySepa, keyP] [(keySepa, dec cur)] ↔ NoBlank uri [keySepa, keyP] :=
    rewrites_setParams List.mem_cons_self (setSize_key cur) ?_
      (fun x hx => by rw [setSize, if_pos hx])
  · unfold PsizeOk
    by_cases h : 63 ∈ uri
    · have hgives :
          Gives
          (joinUri (uriPath uri) (setParams (setSize cur) keySepa (dec cur) (valuedParams uri)))
          (keyP, dec 1) ↔ ∃ x ∈ uriParams uri, x.1 = keyP ∧ x.2 ≠ [] := by
        rw [Gives, uriParams_joinUri (not_mem_uriPath uri), setSize_gives, valuedParams]
        constructor
        · rintro ⟨x, hx, hxp⟩
          obtain ⟨hx, hv⟩ := List.mem_filter.mp hx
          exact ⟨x, hx, hxp, of_decide_eq_true hv⟩
        · rintro ⟨x, hx, hxp, hv⟩
          exact ⟨x, List.mem_filter.mpr ⟨hx, decide_eq_true hv⟩, hxp⟩
      rw [psizeUrl_eq h]
      by_cases hone : uri.count 63 ≤ 1
      · rw [if_pos hone, ← hrewrites, ← hgives]
        constructor
        · rintro ⟨out, hout, hr⟩
          obtain rfl := Option.some.inj hout
          exact ⟨hone, hr⟩
        · exact fun hr => ⟨_, rfl, hr.2⟩
      · rw [if_neg hone]
        constructor
        · rintro ⟨out, hout, -⟩
          cases hout
        · exact fun hr => absurd hr.1 hone
    · have hsize : psizeUrl uri cur = some (joinUri uri [(keySepa, dec cur)]) := by
        rw [psizeUrl, if_pos h, ← joinUri_single uri (by decide +kernel) cur,
          List.append_assoc, List.append_assoc]
        rfl
      have hnone : ¬ ∃ x ∈ uriParams uri, x.1 = keyP := by
        rintro ⟨x, hx, -⟩
        rw [uriParams_of_not_mem h] at hx
        cases hx
      refine ⟨fun _ => ⟨oneMark_of_not_mem h, noBlank_of_not_mem h, fun hp => absurd hp hnone⟩,
        fun _ => ?_⟩
      exact ⟨_, hsize, rewrites_single h List.mem_cons_self, fun hp => absurd hp hnone⟩
  · intro x hx
    rw [List.mem_cons, List.mem_singleton, not_or] at hx
    rw [setSize, if_neg hx.1, if_neg hx.2]

/-! ## The dictionary of `urlupdate` -/

theorem lookup_filter_key (p : Bytes → Bool) (l : List (Bytes × Bytes)) (k : Bytes) :
    (l.filter fun x => p x.1).lookup k = if p k then l.lookup k else none := by
  induction l with
  | nil => simp
  | cons x l ih =>
    obtain ⟨k', v⟩ := x
    by_cases hk : k = k'
    · subst hk
      by_cases hp : p k
      · simp [hp]
      · simp [hp, ih]
    · have hbeq : (k == k') = false := beq_eq_false_iff_ne.mpr hk
      by_cases hp : p k'
      · simp [hp, ih, List.lookup_cons, hbeq]
      · simp [hp, ih, List.lookup_cons, hbeq]

theorem lookup_of_mem {l : List (Bytes × Bytes)} (h : (l.map Prod.fst).Nodup)
    {x : Bytes × Bytes} (hx : x ∈ l) :
    l.lookup x.1 = some x.2 := by
  induction l with
  | nil => cases hx
  | cons y l ih =>
    obtain ⟨hy, hl⟩ := List.nodup_cons.mp h
    rcases List.mem_cons.mp hx with rfl | hx
    · exact List.lookup_cons_self
    · have hne : x.1 ≠ y.1 := fun he => hy (he ▸ List.mem_map_of_mem hx)
      rw [List.lookup_cons, beq_eq_false_iff_ne.mpr hne]
      exact ih hl hx

namespace UrlParams

variable (params : UrlParams)

theorem kept_nodup : (params.kept.map Prod.fst).Nodup :=
  params.nodup.sublist (List.filter_sublist.map _)

/-- No key is both set and dropped. -/
theorem not_mem_droped {k : Bytes} (h : k ∈ params.kept.map Prod.fst) : k ∉ params.droped := by
  intro hd
  obtain ⟨x, hx, rfl⟩ := List.mem_map.mp h
  obtain ⟨y, hy, hkey⟩ := List.mem_map.mp hd
  obtain ⟨hx, hxv⟩ := List.mem_filter.mp hx
  obtain ⟨hy, hyv⟩ := List.mem_filter.mp hy
  have hlx := lookup_of_mem params.nodup hx
  have hly := lookup_of_mem params.nodup hy
  rw [hkey, hlx] at hly
  rw [decide_eq_true_eq] at hxv hyv
  exact hxv ((Option.some.inj hly).trans hyv)

theorem mem_keys {k : Bytes} : k ∈ params.keys ↔ k ∈ params.droped ∨
    k ∈ params.kept.map Prod.fst := by
  have hsplit : ∀ x, x ∈ params.items ↔
      x ∈ params.items.filter (fun x => x.2 = dropthis) ∨ x ∈ params.kept := by
    intro x
    unfold kept
    rw [List.mem_filter, List.mem_filter]
    by_cases hv : x.2 = dropthis <;> simp [hv]
  unfold keys droped
  simp only [List.mem_map]
  constructor
  · rintro ⟨x, hx, rfl⟩
    rcases (hsplit x).mp hx with hx | hx
    · exact .inl ⟨x, hx, rfl⟩
    · exact .inr ⟨x, hx, rfl⟩
  · rintro (⟨x, hx, rfl⟩ | ⟨x, hx, rfl⟩)
    · exact ⟨x, (hsplit x).mpr (.inl hx), rfl⟩
    · exact ⟨x, (hsplit x).mpr (.inr hx), rfl⟩

/-- What becomes of a parameter that is not dropped. -/
def setFrom (x : Bytes × Bytes) : Bytes × Bytes := (x.1, (params.kept.lookup x.1).getD x.2)

theorem setFrom_of_not_mem {x : Bytes × Bytes} (h : x.1 ∉ params.kept.map Prod.fst) :
    params.setFrom x = x := by
  have hnone : params.kept.lookup x.1 = none := by
    refine List.lookup_eq_none_iff.mpr fun y hy => ?_
    have hne : x.1 ≠ y.1 := fun he => h (he ▸ List.mem_map_of_mem hy)
    simpa using hne
  rw [setFrom, hnone]
  rfl

/-- The keys to be set that occur in a query. -/
def hits (old : List (Bytes × Bytes)) : List Bytes :=
  (old.map Prod.fst).filter fun k => k ∈ params.kept.map Prod.fst

/-- The dictionary when these keys have been deleted. -/
def without (seen : List Bytes) : List (Bytes × Bytes) := params.kept.filter fun x => x.1 ∉ seen

theorem lookup_without (seen : List Bytes) (k : Bytes) :
    (params.without seen).lookup k = if k ∉ seen then params.kept.lookup k else none := by
  have h := lookup_filter_key (fun k => decide (k ∉ seen)) params.kept k
  simpa [without] using h

theorem without_cons (seen : List Bytes) (k : Bytes) :
    (params.without seen).filter (fun x => x.1 ≠ k) = params.without (k :: seen) := by
  rw [without, List.filter_filter]
  refine List.filter_congr fun x _ => ?_
  simp [List.mem_cons, not_or]

/-- The keys to be set occur once each, and none of them is deleted already. -/
def Fresh (seen : List Bytes) (old : List (Bytes × Bytes)) : Prop :=
  (params.hits old).Nodup ∧ ∀ k ∈ params.hits old, k ∉ seen

/-- The loop of `urlupdate`: it goes through if no key to be set comes up for the second time. -/
theorem updateLoop_spec (old : List (Bytes × Bytes)) (seen : List Bytes) :
    (params.Fresh seen old →
      updateLoop params.droped (params.kept.map Prod.fst) old (params.without seen) =
        some ((old.filter fun x => x.1 ∉ params.droped).map params.setFrom,
          params.without (old.map Prod.fst ++ seen))) ∧
    (¬ params.Fresh seen old →
      updateLoop params.droped (params.kept.map Prod.fst) old (params.without seen) = none) := by
  induction old generalizing seen with
  | nil => exact ⟨fun _ => rfl, fun h => absurd ⟨List.nodup_nil, nofun⟩ h⟩
  | cons x old ih =>
    obtain ⟨k, v⟩ := x
    -- deleting a key that is not in the dictionary changes nothing
    have hskip : k ∉ params.kept.map Prod.fst →
        (params.Fresh seen ((k, v) :: old) ↔ params.Fresh seen old) ∧
          params.without (((k, v) :: old).map Prod.fst ++ seen) =
            params.without (old.map Prod.fst ++ seen) := by
      intro hk
      have hhits : params.hits ((k, v) :: old) = params.hits old := by
        rw [hits, List.map_cons, List.filter_cons_of_neg (by simpa using hk)]
        rfl
      refine ⟨by rw [Fresh, Fresh, hhits], List.filter_congr fun y hy => ?_⟩
      have hne : y.1 ≠ k := fun he => hk (he ▸ List.mem_map_of_mem hy)
      simp [hne]
    obtain ⟨hok, herr⟩ := ih seen
    by_cases hd : k ∈ params.droped
    · have hk : k ∉ params.kept.map Prod.fst := fun hk => params.not_mem_droped hk hd
      obtain ⟨hfresh, hwithout⟩ := hskip hk
      rw [updateLoop, if_pos hd, List.filter_cons_of_neg (by simpa using hd), hwithout, hfresh]
      exact ⟨hok, herr⟩
    · rw [updateLoop, if_neg hd, List.filter_cons_of_pos (by simpa using hd), List.map_cons]
      by_cases hk : k ∈ params.kept.map Prod.fst
      · rw [if_pos hk, lookup_without]
        have hhits : params.hits ((k, v) :: old) = k :: params.hits old := by
          rw [hits, List.map_cons, List.filter_cons_of_pos (by simpa using hk)]
          rfl
        by_cases hseen : k ∈ seen
        · rw [if_neg (not_not.mpr hseen)]
          refine ⟨fun h => absurd hseen (h.2 k (by rw [hhits]; exact List.mem_cons_self)),
            fun _ => rfl⟩
        · obtain ⟨y, hy, hyk⟩ := List.mem_map.mp hk
          have hlook : params.kept.lookup k = some y.2 := hyk ▸ lookup_of_mem params.kept_nodup hy
          obtain ⟨hok, herr⟩ := ih (k :: seen)
          have hfresh : params.Fresh seen ((k, v) :: old) ↔ params.Fresh (k :: seen) old := by
            unfold Fresh
            rw [hhits, List.nodup_cons]
            constructor
            · rintro ⟨⟨hnot, hnodup⟩, hall⟩
              refine ⟨hnodup, fun k' hk' => ?_⟩
              rw [List.mem_cons, not_or]
              exact ⟨fun he => hnot (he ▸ hk'), hall k' (List.mem_cons_of_mem _ hk')⟩
            · rintro ⟨hnodup, hall⟩
              refine ⟨⟨fun hmem => hall k hmem List.mem_cons_self, hnodup⟩, fun k' hk' => ?_⟩
              rcases List.mem_cons.mp hk' with rfl | hk'
              · exact hseen
              · exact fun hs => hall k' hk' (List.mem_cons_of_mem _ hs)
          have hset : params.setFrom (k, v) = (k, y.2) := by rw [setFrom, hlook]; rfl
          have hrest : params.without (((k, v) :: old).map Prod.fst ++ seen) =
              params.without (old.map Prod.fst ++ k :: seen) := by
            refine List.filter_congr fun z _ => ?_
            simp [or_left_comm]
          rw [if_pos hseen, hlook, hfresh, without_cons, hset, hrest]
          dsimp only
          exact ⟨fun h => by rw [hok h]; rfl, fun h => by rw [herr h]; rfl⟩
      · obtain ⟨hfresh, hwithout⟩ := hskip hk
        rw [if_neg hk, params.setFrom_of_not_mem (x := (k, v)) hk, hwithout, hfresh]
        exact ⟨fun h => by rw [hok h]; rfl, fun h => by rw [herr h]; rfl⟩

end UrlParams

/-! ## What `urlupdate` writes -/

variable (params : UrlParams)

theorem fresh_nil_iff (uri : Bytes) :
    params.Fresh [] (valuedParams uri) ↔ ∀ k ∈ params.kept.map Prod.fst, valued uri k ≤ 1 := by
  have hcount : ∀ k, ((valuedParams uri).map Prod.fst).count k = valued uri k := by
    intro k
    rw [List.count_eq_countP, List.countP_map, List.countP_eq_length_filter, valuedParams,
      List.filter_filter, valued]
    congr 1
    refine List.filter_congr fun x _ => ?_
    simp [Function.comp, Bool.beq_eq_decide_eq]
  unfold UrlParams.Fresh UrlParams.hits
  rw [List.nodup_iff_count]
  constructor
  · rintro ⟨h, -⟩ k hk
    have := h k
    rw [List.count_filter (by simpa using hk), hcount] at this
    exact this
  · intro h
    refine ⟨fun k => ?_, fun _ _ => List.not_mem_nil⟩
    by_cases hk : k ∈ params.kept.map Prod.fst
    · rw [List.count_filter (by simpa using hk), hcount]
      exact h k hk
    · have hnot : k ∉ (List.map Prod.fst (valuedParams uri)).filter fun k =>
          k ∈ params.kept.map Prod.fst := by
        intro hmem
        exact hk (of_decide_eq_true (List.mem_filter.mp hmem).2)
      rw [List.count_eq_zero.mpr hnot]
      omega

/-- The parameters that `urlupdate` writes for these old ones. -/
def updated (old : List (Bytes × Bytes)) : List (Bytes × Bytes) :=
  (old.filter fun x => x.1 ∉ params.droped).map params.setFrom ++ params.without (old.map Prod.fst)

theorem mem_without {x : Bytes × Bytes} {seen : List Bytes} :
    x ∈ params.without seen ↔ x ∈ params.kept ∧ x.1 ∉ seen := by
  rw [UrlParams.without, List.mem_filter, decide_eq_true_eq]

/-- What is left in the dictionary is not dropped. -/
theorem filter_without (seen : List Bytes) :
    (params.without seen).filter (fun x => x.1 ∉ params.droped) = params.without seen := by
  refine List.filter_eq_self.mpr fun x hx => decide_eq_true ?_
  exact params.not_mem_droped (List.mem_map_of_mem ((mem_without params).mp hx).1)

theorem urlupdate_eq (uri : Bytes) :
    urlupdate uri params =
      if OneMark uri ∧ ∀ k ∈ params.kept.map Prod.fst, valued uri k ≤ 1 then
        some (joinUri (uriPath uri) (updated params (valuedParams uri)))
      else none := by
  have hall : params.without [] = params.kept := List.filter_eq_self.mpr fun _ _ =>
    decide_eq_true List.not_mem_nil
  obtain ⟨hok, herr⟩ := params.updateLoop_spec (valuedParams uri) []
  rw [hall, List.append_nil] at hok
  rw [hall] at herr
  rw [fresh_nil_iff] at hok herr
  unfold urlupdate
  by_cases h : 63 ∈ uri
  · rw [if_pos h, splitUri_eq h]
    by_cases hone : uri.count 63 ≤ 1
    · rw [if_pos hone]
      dsimp only
      rw [parseQsl_uriQuery]
      by_cases hk : ∀ k ∈ params.kept.map Prod.fst, valued uri k ≤ 1
      · rw [if_pos ⟨hone, hk⟩, hok hk, Option.map_some, filter_without]
        rfl
      · rw [if_neg fun hc => hk hc.2, herr hk]
        rfl
    · rw [if_neg hone, if_neg fun hc => hone hc.1]
  · have hnil : valuedParams uri = [] := by rw [valuedParams, uriParams_of_not_mem h]; rfl
    have hzero : ∀ k ∈ params.kept.map Prod.fst, valued uri k ≤ 1 := by
      intro k _
      rw [valued, uriParams_of_not_mem h]
      exact Nat.zero_le 1
    rw [if_neg h, if_pos ⟨oneMark_of_not_mem h, hzero⟩, hnil, uriPath_of_not_mem h, updated,
      List.map_nil, hall]
    have hfilter := filter_without params []
    rw [hall] at hfilter
    dsimp only
    rw [hfilter]
    rfl

/-- The parameters that are neither set nor dropped are kept. -/
theorem updated_others (old : List (Bytes × Bytes)) :
    (updated params old).filter (fun x => x.1 ∉ params.keys) = old.filter fun x =>
      x.1 ∉ params.keys := by
  have hrest : (params.without (old.map Prod.fst)).filter (fun x => x.1 ∉ params.keys) = [] := by
    refine List.filter_eq_nil_iff.mpr fun x hx hn => of_decide_eq_true hn ?_
    exact params.mem_keys.mpr (.inr (List.mem_map_of_mem ((mem_without params).mp hx).1))
  have hsame : ∀ x : Bytes × Bytes, x.1 ∉ params.keys → params.setFrom x = x := fun x hx =>
    params.setFrom_of_not_mem fun hk => hx (params.mem_keys.mpr (.inr hk))
  have hkey : ∀ x, (params.setFrom x).1 = x.1 := fun _ => rfl
  rw [updated, List.filter_append, hrest, List.append_nil, filter_map_touched hkey hsame,
    List.filter_filter]
  refine List.filter_congr fun x _ => ?_
  by_cases hx : x.1 ∈ params.keys
  · simp [hx]
  · have hd : x.1 ∉ params.droped := fun hd => hx (params.mem_keys.mpr (.inl hd))
    simp [hx, hd]

/-- A parameter that is set has its value. -/
theorem updated_gives (old : List (Bytes × Bytes)) {x : Bytes × Bytes} (hx : x ∈ params.kept) :
    (∃ y ∈ updated params old, y.1 = x.1) ∧ ∀ y ∈ updated params old, y.1 = x.1 → y.2 = x.2 := by
  have hlook := lookup_of_mem params.kept_nodup hx
  have hkey : x.1 ∈ params.kept.map Prod.fst := List.mem_map_of_mem hx
  constructor
  · by_cases hold : x.1 ∈ old.map Prod.fst
    · obtain ⟨z, hz, hzk⟩ := List.mem_map.mp hold
      have hzd : z.1 ∉ params.droped := by
        rw [hzk]
        exact params.not_mem_droped hkey
      refine ⟨params.setFrom z, List.mem_append_left _ (List.mem_map_of_mem ?_), hzk⟩
      exact List.mem_filter.mpr ⟨hz, decide_eq_true hzd⟩
    · exact ⟨x, List.mem_append_right _ ((mem_without params).mpr ⟨hx, hold⟩), rfl⟩
  · intro y hy hyk
    rcases List.mem_append.mp hy with hy | hy
    · obtain ⟨z, -, rfl⟩ := List.mem_map.mp hy
      have hzk : z.1 = x.1 := hyk
      rw [UrlParams.setFrom, hzk, hlook]
      rfl
    · have hly := lookup_of_mem params.kept_nodup ((mem_without params).mp hy).1
      rw [hyk, hlook] at hly
      exact (Option.some.inj hly).symm

theorem updated_drops (old : List (Bytes × Bytes)) {k : Bytes} (hk : k ∈ params.droped) :
    ∀ y ∈ updated params old, y.1 ≠ k := by
  intro y hy he
  rcases List.mem_append.mp hy with hy | hy
  · obtain ⟨z, hz, rfl⟩ := List.mem_map.mp hy
    have hzk : z.1 = k := he
    exact absurd hk (hzk ▸ of_decide_eq_true (List.mem_filter.mp hz).2)
  · have := List.mem_map_of_mem (f := Prod.fst) ((mem_without params).mp hy).1
    exact params.not_mem_droped this (he ▸ hk)

theorem update_iff (uri : Bytes) :
    UpdateOk uri params ↔ OneMark uri ∧ NoBlank uri params.keys ∧
      ∀ k ∈ params.kept.map Prod.fst, valued uri k ≤ 1 := by
  have hparams := uriParams_joinUri (not_mem_uriPath uri) (updated params (valuedParams uri))
  unfold UpdateOk
  rw [urlupdate_eq]
  by_cases hok : OneMark uri ∧ ∀ k ∈ params.kept.map Prod.fst, valued uri k ≤ 1
  · rw [if_pos hok]
    constructor
    · rintro ⟨out, hout, hr, -⟩
      obtain rfl := Option.some.inj hout
      have hothers := hr.others
      rw [hparams, updated_others] at hothers
      exact ⟨hok.1, filter_eq_iff_noBlank.mp hothers, hok.2⟩
    · rintro ⟨-, hblank, -⟩
      refine ⟨_, rfl, ⟨uriPath_joinUri (not_mem_uriPath uri) _, ?_, ?_⟩, ?_⟩
      · rw [hparams, updated_others]
        exact filter_eq_iff_noBlank.mpr hblank
      · intro x hx
        rw [Gives, hparams]
        exact updated_gives params _ hx
      · intro k hk
        rw [hparams]
        exact updated_drops params _ hk
  · rw [if_neg hok]
    constructor
    · rintro ⟨out, hout, -⟩
      cases hout
    · exact fun h => absurd ⟨h.1, h.2.2⟩ hok

/-- **When a link keeps the query**: there is no second question mark, no other parameter has a
blank value, the page number that `psize_url` sends back has one, and no key that `urlupdate` sets
has two. -/
theorem links_iff (uri : Bytes) (cur : Int) (params : UrlParams) :
    (PageOk uri cur ↔ OneMark uri ∧ NoBlank uri [keyP]) ∧
    (PsizeOk uri cur ↔ OneMark uri ∧ NoBlank uri [keySepa, keyP] ∧
      ((∃ x ∈ uriParams uri, x.1 = keyP) → ∃ x ∈ uriParams uri, x.1 = keyP ∧ x.2 ≠ [])) ∧
    (UpdateOk uri params ↔ OneMark uri ∧ NoBlank uri params.keys ∧
      ∀ k ∈ params.kept.map Prod.fst, valued uri k ≤ 1) :=
  ⟨page_iff uri cur, psize_iff uri cur, update_iff params uri⟩

/-- A search for something with a question mark in it, a blank value, and a key that occurs twice.
-/
theorem links_fail :
    pageUrl (cstr "/list?q=who?&p=2") 3 = none ∧ psizeUrl (cstr "/list?q=who?&p=2") 20 = none ∧
      pageUrl (cstr "/list?q=&p=2") 3 = some (cstr "/list?p=3") ∧ ¬ PageOk (cstr "/list?q=&p=2") 3 ∧
      urlupdate (cstr "/list?p=1&p=2") ⟨[(keyP, cstr "3")], by decide⟩ = none := by
  refine ⟨rfl, rfl, rfl, ?_, rfl⟩
  intro h
  obtain ⟨-, hblank⟩ := (page_iff _ _).mp h
  exact hblank (cstr "q", []) (by decide) (by decide) rfl

end LuoYun.Web
