namespace Reply

/-!
# Field names

A header field name is a token: one to 65535 characters out of ASCII letters,
digits and a few marks.  Names are compared without regard to case, so they are
kept in lower case.
-/

namespace Field

/-- Whether a character may stand in a token. -/
def isTokenChar (char : Char) : Bool :=
  char.isAlphanum || "!#$%&'*+-.^_`|~".toList.contains char

/-- Whether a text is a field name in some letter case. -/
def isToken (text : List Char) : Bool :=
  !text.isEmpty && decide (text.length ≤ 65535) && text.all isTokenChar

/-- A field name in lower case. -/
structure Name where
  text : String
  deriving DecidableEq

namespace Name

/-- Read a field name in any letter case. -/
def ofText? (text : String) : Option Name :=
  if isToken text.toList then
    some ⟨text.toLower⟩
  else
    none

/-- The field that lists connection options. -/
def connection : Name :=
  ⟨"connection"⟩

/-- The field that gives the body's length. -/
def contentLength : Name :=
  ⟨"content-length"⟩

/-- The field that gives the body's media type. -/
def contentType : Name :=
  ⟨"content-type"⟩

/-- The field that gives the content's tag. -/
def etag : Name :=
  ⟨"etag"⟩

/-- The field that frames a body without a length. -/
def transferEncoding : Name :=
  ⟨"transfer-encoding"⟩

end Name

end Field

end Reply
