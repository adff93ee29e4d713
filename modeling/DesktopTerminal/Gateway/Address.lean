import DesktopTerminal.Text.Pieces

/-!
# Addresses

An address on the web names an authority, to which a request goes, and a target, which the request
names. In a target a backslash separates segments like a slash, the segments `.` and `..` are
resolved, and characters that may not stand there are written as percent signs with the digits of
their bytes. Tabs and line ends in an address do not count, and a fragment is not sent.
-/
namespace DesktopTerminal

structure Address where
  authority : String
  target : String
deriving DecidableEq, Repr

namespace Address

def isSeparator (c : Char) : Bool := c == '/' || c == '\\'

/-- The characters that end an authority. -/
def endsAuthority (c : Char) : Bool := isSeparator c || c == '?' || c == '#'

/-- The characters that end a path. -/
def endsPath (c : Char) : Bool := c == '?' || c == '#'

def isVisible (c : Char) : Bool := 32 < c.toNat && c.toNat < 127

/-- The characters that stand for themselves in a path. -/
def isPathChar (c : Char) : Bool :=
  isVisible c && !(['\x22', '#', '<', '>', '?', '\x60', '\x7b', '\x7d'].contains c)

/-- The characters that stand for themselves in a query. -/
def isQueryChar (c : Char) : Bool := isVisible c && !(['\x22', '#', '<', '>', '\x27'].contains c)

def hexDigit (n : Nat) : Char := (Nat.digitChar n).toUpper

def percentByte (b : UInt8) : List Char :=
  ['%', hexDigit (b.toNat / 16), hexDigit (b.toNat % 16)]

/-- A text in which only characters of a class stand for themselves. -/
def percentEncode (stands : Char → Bool) (cs : List Char) : List Char :=
  cs.flatMap fun c =>
    if stands c then [c] else (String.singleton c).toUTF8.toList.flatMap percentByte

/-- A segment with its escaped points read. -/
def plainDots : List Char → List Char
  | '%' :: '2' :: 'e' :: cs => '.' :: plainDots cs
  | '%' :: '2' :: 'E' :: cs => '.' :: plainDots cs
  | c :: cs => c :: plainDots cs
  | [] => []

/-- The segments of a path behind the segments `before`, with `.` and `..` resolved. A path that
ends in one of these ends in a slash. -/
def resolveDots (before : List (List Char)) : List (List Char) → List (List Char)
  | [] => before
  | s :: rest =>
    let stay := if rest.isEmpty then [[]] else []
    if plainDots s = ['.'] then resolveDots (before ++ stay) rest
    else if plainDots s = ['.', '.'] then resolveDots (before.dropLast ++ stay) rest
    else resolveDots (before ++ [s]) rest

/-- The path of a target, from its first separator on. -/
def path (cs : List Char) : List Char :=
  (resolveDots [] (Text.cut isSeparator (cs.drop 1))).flatMap fun s =>
    '/' :: percentEncode isPathChar s

/-- The query of a target with its question mark, before a fragment. -/
def query : List Char → List Char
  | '?' :: cs => '?' :: percentEncode isQueryChar (cs.takeWhile (· != '#'))
  | _ => []

def targetOf (cs : List Char) : List Char :=
  path (cs.takeWhile (!endsPath ·)) ++ query (cs.dropWhile (!endsPath ·))

/-- The text behind a scheme that requests can be sent by. -/
def afterScheme? (cs : List Char) : Option (List Char) :=
  let behind (scheme : String) : Option (List Char) :=
    if scheme.toList.isPrefixOf cs then some (cs.drop scheme.length) else none
  (behind "http://").or (behind "https://")

def isIgnored (c : Char) : Bool := c == '\t' || c == '\n' || c == '\r'

/-- Reads an address with its scheme. -/
def ofUrl? (url : String) : Option Address :=
  (afterScheme? (url.toList.filter (!isIgnored ·))).map fun cs =>
    ⟨String.ofList (cs.takeWhile (!endsAuthority ·)),
      String.ofList (targetOf (cs.dropWhile (!endsAuthority ·)))⟩

end Address

end DesktopTerminal
