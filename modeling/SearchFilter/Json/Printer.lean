import SearchFilter.Json.Basic

/-!
# Writing JSON

The compact form: no blanks, members in the order of the object, and inside strings an escape only
for the double quote, the backslash and the control characters below U+0020, which have a letter if
JSON knows one and four lower-case hexadecimal digits else.
-/

namespace SearchFilter.Json

/-- The hexadecimal digit, in lower case. -/
def hexDigit (n : Nat) : Char :=
  Nat.digitChar n

/-- The escape of a code point in four hexadecimal digits. -/
def hexEscape (n : Nat) : List Char :=
  ['\\', 'u', hexDigit (n / 4096 % 16), hexDigit (n / 256 % 16), hexDigit (n / 16 % 16),
    hexDigit (n % 16)]

/-- The written form of one character of a string. -/
def escapeChar (c : Char) : List Char :=
  match c with
  | '"' => ['\\', '"']
  | '\\' => ['\\', '\\']
  | '\x08' => ['\\', 'b']
  | '\t' => ['\\', 't']
  | '\n' => ['\\', 'n']
  | '\x0c' => ['\\', 'f']
  | '\r' => ['\\', 'r']
  | c => if c.toNat < 0x20 then hexEscape c.toNat else [c]

/-- The string in its written form, quotes included. -/
def renderString (s : String) : String :=
  String.ofList ('"' :: (s.toList.flatMap escapeChar ++ ['"']))

mutual

/-- The compact form of a value. -/
def render : Json → String
  | .null => "null"
  | .bool b => if b then "true" else "false"
  | .number n => n.render
  | .string s => renderString s
  | .array [] => "[]"
  | .array (e :: es) => "[" ++ render e ++ renderRest es ++ "]"
  | .object [] => "\x7b\x7d"
  | .object (m :: ms) => "\x7b" ++ renderMember m ++ renderMembers ms ++ "\x7d"

/-- The elements after the first, each behind a comma. -/
def renderRest : List Json → String
  | [] => ""
  | e :: es => "," ++ render e ++ renderRest es

/-- A member: its name, a colon and its value. -/
def renderMember : Member → String
  | ⟨name, value⟩ => renderString name ++ ":" ++ render value

/-- The members after the first, each behind a comma. -/
def renderMembers : List Member → String
  | [] => ""
  | m :: ms => "," ++ renderMember m ++ renderMembers ms

end

end SearchFilter.Json
