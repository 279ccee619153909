import QueryGraph.Unicode.Quoted

/-!
# Environments

The variables of an environment have bytes as their values. Bytes that are not the
encoding of a text have a quoted text all the same, in which every byte that belongs
to no character is written in hexadecimal.
-/

namespace QueryGraph

/-- The variables that are set, each with its bytes. -/
structure Environment where
  entries : List (String × List UInt8) := []
  deriving DecidableEq, Repr

namespace Environment

/-- The bytes of a variable. -/
def bytes? (environment : Environment) (name : String) : Option (List UInt8) :=
  environment.entries.lookup name

/-- The text that bytes encode. -/
def decode? (bytes : List UInt8) : Option String :=
  String.fromUTF8? ⟨bytes.toArray⟩

/-- The text of a variable, if it is set to a text. -/
def text? (environment : Environment) (name : String) : Option String :=
  (environment.bytes? name).bind decode?

/-- Sets a variable to bytes. -/
def setBytes
    (environment : Environment)
    (name : String)
    (bytes : List UInt8) : Environment :=
  ⟨(name, bytes) :: environment.entries⟩

/-- Sets a variable to a text. -/
def setText
    (environment : Environment)
    (name text : String) : Environment :=
  environment.setBytes name text.toUTF8.toList

/-- An environment of texts. -/
def ofTexts (entries : List (String × String)) : Environment :=
  ⟨entries.map fun (name, text) => (name, text.toUTF8.toList)⟩

/-- A digit of a number in base sixteen. -/
def hexDigit (value : Nat) : Char :=
  if value < 10 then Char.ofNat (48 + value) else Char.ofNat (55 + value)

/-- A byte in hexadecimal. -/
def quotedByte (byte : UInt8) : List Char :=
  ['\\', 'x', hexDigit (byte.toNat / 16), hexDigit (byte.toNat % 16)]

/-- Bytes inside a quoted text, one character or one stray byte at a time. -/
def quotedBytes (bytes : ByteArray) : (fuel : Nat) -> (position : Nat) -> List Char
  | 0, _ => []
  | fuel + 1, position =>
      if inside : position < bytes.size then
        match bytes.utf8DecodeChar? position with
        | some character =>
            Unicode.quotedCharacter character ++
              quotedBytes bytes fuel (position + character.utf8Size)
        | none => quotedByte bytes[position] ++ quotedBytes bytes fuel (position + 1)
      else []

/-- The quoted text of bytes. -/
def quoted (bytes : List UInt8) : String :=
  String.ofList (['"'] ++ quotedBytes ⟨bytes.toArray⟩ bytes.length 0 ++ ['"'])

end Environment
end QueryGraph
