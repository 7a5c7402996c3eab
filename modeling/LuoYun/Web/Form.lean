import LuoYun.Web.Python

/-!
# What a form checks

The validators `Length` and `Email`, and `strip` of a `unicode` text.
-/

namespace LuoYun.Web

/-- `c.isspace()`. -/
def isspace (c : Char) : Bool :=
  let n := c.toNat
  9 ≤ n && n ≤ 13 || 28 ≤ n && n ≤ 32 || n = 0x85 || n = 0xa0 || n = 0x1680 || n = 0x180e ||
    0x2000 ≤ n && n ≤ 0x200a || n = 0x2028 || n = 0x2029 || n = 0x202f || n = 0x205f || n = 0x3000

/-- `text.strip()` of a `unicode` text. -/
def stripText (text : Text) : Text := ((text.dropWhile isspace).reverse.dropWhile isspace).reverse

/-- `Length(min, max)`. -/
def lengthOk (min max : Nat) (text : Text) : Bool := min ≤ text.length && text.length ≤ max

/-- `[a-z]{2,10}$`, whatever the case. The end of a text may be a newline. -/
def isTopLevel (text : Text) : Bool :=
  let name := if text.getLast? = some '\n' then text.dropLast else text
  lengthOk 2 10 name && name.all fun c => 'a' ≤ c && c ≤ 'z' || 'A' ≤ c && c ≤ 'Z'

/-- `.*\.` and what follows. -/
def isDomain (text : Text) : Bool :=
  (List.range text.length).any fun i =>
    text[i]? = some '.' && (text.take i).all (· ≠ '\n') && isTopLevel (text.drop (i + 1))

/-- `Email()`: the expression `^.+@[^.].*\.[a-z]{2,10}$`. -/
def isEmail (text : Text) : Bool :=
  (List.range text.length).any fun i =>
    text[i]? = some '@' && 0 < i && (text.take i).all (· ≠ '\n') &&
      match text.drop (i + 1) with
      | [] => false
      | c :: rest => c ≠ '.' && isDomain rest

end LuoYun.Web
