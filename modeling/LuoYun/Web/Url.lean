import LuoYun.Lib.Query
import LuoYun.Util.Text

/-!
# `pagination.py` and `lycustom.py`: links to the page at hand

A link to another page of a list is the request URI with some parameters of its query set or
dropped. Each of the three functions parses the query, goes over the parameters, and writes a new
query. The parser is called without `keep_blank_values`.

An exception is `none`.
-/

namespace LuoYun.Web

open Query

/-- `path, params = uri.split('?')`, which raises `ValueError` unless there is exactly one `?`. -/
def splitUri (uri : Bytes) : Option (Bytes × Bytes) :=
  match uri.dropWhile (· ≠ 63) with
  | [] => none
  | _ :: params => if 63 ∈ params then none else some (uri.takeWhile (· ≠ 63), params)

/-- `'?'.join([path, urllib.urlencode(new)])`. -/
def joinUri (path : Bytes) (new : List (Bytes × Bytes)) : Bytes := path ++ 63 :: urlencode new

/-- The key of the page number. -/
def keyP : Bytes := cstr "p"

/-- The key of the page size. -/
def keySepa : Bytes := cstr "sepa"

/-- `page_url`. -/
def pageUrl (uri : Bytes) (cur : Int) : Option Bytes :=
  if 63 ∉ uri then some (uri ++ cstr "?p=" ++ dec cur)
  else match splitUri uri with
  | none => none
  | some (path, params) =>
    let old := parseQsl false params
    let new := old.map fun x => if x.1 = keyP then (x.1, dec cur) else x
    let findP := old.any fun x => x.1 = keyP
    some (joinUri path (if findP then new else new ++ [(keyP, dec cur)]))

/-- `psize_url`. -/
def psizeUrl (uri : Bytes) (cur : Int) : Option Bytes :=
  if 63 ∉ uri then some (uri ++ cstr "?sepa=" ++ dec cur)
  else match splitUri uri with
  | none => none
  | some (path, params) =>
    let old := parseQsl false params
    let new := old.map fun x =>
      if x.1 = keySepa then (x.1, dec cur) else if x.1 = keyP then (x.1, dec 1) else x
    let findSepa := old.any fun x => x.1 = keySepa
    some (joinUri path (if findSepa then new else new ++ [(keySepa, dec cur)]))

/-- The dictionary that `urlupdate` is given, with the values as `str` has them. -/
structure UrlParams where
  items : List (Bytes × Bytes)
  nodup : (items.map Prod.fst).Nodup

/-- The value that asks for a parameter to be dropped. -/
def dropthis : Bytes := cstr "dropthis"

namespace UrlParams

/-- The keys of the dictionary. -/
def keys (params : UrlParams) : List Bytes := params.items.map Prod.fst

/-- `droped`. -/
def droped (params : UrlParams) : List Bytes :=
  (params.items.filter fun x => x.2 = dropthis).map Prod.fst

/-- What is left when these are deleted. -/
def kept (params : UrlParams) : List (Bytes × Bytes) := params.items.filter fun x => x.2 ≠ dropthis

end UrlParams

/-- The loop of `urlupdate`: the new parameters, and what is left in the dictionary. A key that was
there when the loop began may be gone: `KeyError`. -/
def updateLoop (droped updateKeys : List Bytes) :
    List (Bytes × Bytes) → List (Bytes × Bytes) →
      Option (List (Bytes × Bytes) × List (Bytes × Bytes))
  | [], params => some ([], params)
  | (k, v) :: old, params =>
    if k ∈ droped then updateLoop droped updateKeys old params
    else if k ∈ updateKeys then
      match params.lookup k with
      | none => none
      | some v =>
        (updateLoop droped updateKeys old (params.filter fun x => x.1 ≠ k)).map fun r =>
          ((k, v) :: r.1, r.2)
    else (updateLoop droped updateKeys old params).map fun r => ((k, v) :: r.1, r.2)

/-- `urlupdate`. -/
def urlupdate (uri : Bytes) (params : UrlParams) : Option Bytes :=
  let finish (path : Bytes) (r : List (Bytes × Bytes) × List (Bytes × Bytes)) : Bytes :=
    joinUri path (r.1 ++ r.2.filter fun x => x.1 ∉ params.droped)
  if 63 ∈ uri then
    match splitUri uri with
    | none => none
    | some (path, oldparams) =>
      (updateLoop params.droped (params.kept.map Prod.fst)
        (parseQsl false oldparams) params.kept).map
        (finish path)
  else some (finish uri ([], params.kept))

end LuoYun.Web
