set_option autoImplicit false
namespace CoopScript.Literal

def unescapeChar (c : Char) : Char :=
  match c with
  | 'n' => '\n'
  | 't' => '\t'
  | 'r' => '\r'
  | '0' => '\x00'
  | other => other

def unescapeAll : List Char → List Char
  | [] => []
  | ['\x5c'] => []
  | '\x5c' :: c :: rest => unescapeChar c :: unescapeAll rest
  | c :: rest => c :: unescapeAll rest

-- What stands between the first and the last byte; nothing when those are not whole characters.
def between : List Char → List Char
  | [] => []
  | first :: rest =>
    match rest.getLast? with
    | none => []
    | some last => if first.utf8Size = 1 && last.utf8Size = 1 then rest.dropLast else []

def unescape (raw : String) : String := String.ofList (unescapeAll (between raw.toList))

end CoopScript.Literal
