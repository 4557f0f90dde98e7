import SealedMessaging.Bytes

/-!
# UTF-8

* `utf8`: the bytes of a text.
* `isUtf8`: whether a byte string is the UTF-8 form of some text. It goes by the ranges of lead
  and continuation bytes, so it refuses overlong forms, surrogates, numbers above `10FFFF` and
  characters cut short.
-/

namespace SealedMessaging

/-- The UTF-8 bytes of a list of characters. -/
def utf8Chars (cs : List Char) : Bytes :=
  cs.flatMap String.utf8EncodeChar

/-- The UTF-8 bytes of a text. -/
def utf8 (text : String) : Bytes :=
  utf8Chars text.toList

/-- Whether a byte lies between two bounds, both included. -/
def byteIn (low high b : UInt8) : Bool :=
  low ≤ b && b ≤ high

/-- Whether a byte continues a character. -/
def isContinuation (b : UInt8) : Bool :=
  byteIn 0x80 0xBF b

/-- **Whether a byte string is well-formed UTF-8.** The lead byte fixes how many bytes follow and
the range of the first of them. -/
def isUtf8 : Bytes → Bool
  | [] => true
  | a :: rest =>
    if a < 0x80 then isUtf8 rest
    else match rest with
      | [] => false
      | b :: rest =>
        if byteIn 0xC2 0xDF a then isContinuation b && isUtf8 rest
        else match rest with
          | [] => false
          | c :: rest =>
            if a == 0xE0 then byteIn 0xA0 0xBF b && isContinuation c && isUtf8 rest
            else if byteIn 0xE1 0xEC a || byteIn 0xEE 0xEF a then
              isContinuation b && isContinuation c && isUtf8 rest
            else if a == 0xED then byteIn 0x80 0x9F b && isContinuation c && isUtf8 rest
            else match rest with
              | [] => false
              | d :: rest =>
                (if a == 0xF0 then byteIn 0x90 0xBF b
                  else if byteIn 0xF1 0xF3 a then isContinuation b
                  else a == 0xF4 && byteIn 0x80 0x8F b) &&
                isContinuation c && isContinuation d && isUtf8 rest

end SealedMessaging
