set_option autoImplicit false
namespace CoopScript

structure Position where
  line : Nat
  column : Nat
  offset : Nat
  file : Option String
deriving DecidableEq

namespace Position

def start (file : Option String) : Position := ⟨1, 1, 0, file⟩

instance : Inhabited Position := ⟨start none⟩

def after (place : Position) (c : Char) : Position :=
  if c = '\n' then
    { place with line := place.line + 1, column := 1, offset := place.offset + c.utf8Size }
  else
    { place with column := place.column + 1, offset := place.offset + c.utf8Size }

def afterAll (place : Position) (text : List Char) : Position := text.foldl after place

def text (place : Position) : String :=
  let spot := toString place.line ++ ":" ++ toString place.column
  match place.file with
  | some file => file ++ ":" ++ spot
  | none => spot

end Position
end CoopScript
