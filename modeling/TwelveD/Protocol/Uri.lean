import TwelveD.Text.Pieces

/-!
# Resource identifiers

Documents are named by URI references, absolute or relative. Their form is checked, and otherwise they
are kept as they are written.
-/

namespace TwelveD.Uri

/-- Whether a character is a digit to the base sixteen. -/
def isHexDigit (c : Char) : Bool :=
  c.isDigit || ('a' ≤ c && c ≤ 'f') || ('A' ≤ c && c ≤ 'F')

/-- Whether a character may stand anywhere by itself. -/
def isUnreserved (c : Char) : Bool := c.isAlphanum || ['-', '.', '_', '~'].contains c

/-- Whether a character may separate parts of a component. -/
def isSubDelimiter (c : Char) : Bool :=
  ['!', '$', '&', '\'', '(', ')', '*', '+', ',', ';', '='].contains c

/-- Whether a text has only characters of the given class and `%` escapes. -/
def consistsOf (allowed : Char → Bool) : List Char → Bool
  | [] => true
  | '%' :: a :: b :: rest => isHexDigit a && isHexDigit b && consistsOf allowed rest
  | c :: rest => c != '%' && allowed c && consistsOf allowed rest

/-- The characters of a host name. -/
def isNameChar (c : Char) : Bool := isUnreserved c || isSubDelimiter c

/-- The characters of a path segment. -/
def isSegmentChar (c : Char) : Bool := isNameChar c || c == ':' || c == '@'

/-- The characters of a path. -/
def isPathChar (c : Char) : Bool := isSegmentChar c || c == '/'

/-- The characters of a query or a fragment. -/
def isQueryChar (c : Char) : Bool := isPathChar c || c == '?'

/-! ## Internet addresses -/

/-- Whether a text is a number from 0 to 255 without leading zeros. -/
def isOctet (cs : List Char) : Bool :=
  !cs.isEmpty && cs.length ≤ 3 && cs.all Char.isDigit && (cs.length == 1 || cs.head? != some '0') &&
    cs.foldl (fun n d => n * 10 + (d.toNat - '0'.toNat)) 0 ≤ 255

/-- Whether a text is an address of four octets. -/
def isIPv4 (cs : List Char) : Bool :=
  let octets := Text.pieces '.' cs
  octets.length == 4 && octets.all isOctet

/-- Whether a text is a group of an address of eight groups. -/
def isGroup (cs : List Char) : Bool := !cs.isEmpty && cs.length ≤ 4 && cs.all isHexDigit

/-- How many groups a list of pieces has; an address of four octets may be the last piece, if
    `octets` allows it, and counts for two groups. -/
def countGroups? (octets : Bool) : List (List Char) → Option Nat
  | [] => some 0
  | [last] => if isGroup last then some 1 else if octets && isIPv4 last then some 2 else none
  | piece :: others => if isGroup piece then (countGroups? octets others).map (· + 1) else none

/-- How many groups a text between colons has. -/
def groupsIn? (octets : Bool) (cs : List Char) : Option Nat :=
  if cs.isEmpty then some 0 else countGroups? octets (Text.pieces ':' cs)

/-- What stands before and behind the first double colon. -/
def cutDoubleColon? : List Char → Option (List Char × List Char)
  | ':' :: ':' :: rest => some ([], rest)
  | c :: rest => (cutDoubleColon? rest).map fun (before, behind) => (c :: before, behind)
  | [] => none

/-- Whether a text is an address of eight groups, of which a double colon may leave some out. -/
def isIPv6 (cs : List Char) : Bool :=
  match cutDoubleColon? cs with
  | none => groupsIn? true cs == some 8
  | some (before, behind) =>
    match groupsIn? false before, groupsIn? true behind with
    | some m, some n => m + n ≤ 7
    | _, _ => false

/-! ## Components -/

/-- Whether a text is a port behind a host. -/
def isPortSuffix : List Char → Bool
  | [] => true
  | ':' :: digits => digits.all Char.isDigit
  | _ => false

/-- Whether a text is a host with or without a port. -/
def isHostPort (cs : List Char) : Bool :=
  match cs with
  | '[' :: rest =>
    match Text.cut? ']' rest with
    | some (address, port) => isIPv6 address && isPortSuffix port
    | none => false
  | cs =>
    let host := cs.takeWhile (· != ':')
    consistsOf isNameChar host && isPortSuffix (cs.dropWhile (· != ':'))

/-- Whether a text is an authority: a host, with or without a user before it and a port behind it. -/
def isAuthority (cs : List Char) : Bool :=
  match Text.cut? '@' cs with
  | some (user, host) => consistsOf (fun c => isNameChar c || c == ':') user && isHostPort host
  | none => isHostPort cs

/-- Whether a text is an authority followed by a path. -/
def isAuthorityPath (cs : List Char) : Bool :=
  isAuthority (cs.takeWhile (· != '/')) && consistsOf isPathChar (cs.dropWhile (· != '/'))

/-- Whether a text is a scheme. -/
def isScheme : List Char → Bool
  | [] => false
  | c :: rest => c.isAlpha && rest.all fun c => c.isAlphanum || ['+', '-', '.'].contains c

/-- Whether a text, up to its query and fragment, is a reference. Without a scheme the first segment
    of the path has no colon. -/
def isHierarchy (cs : List Char) : Bool :=
  match cs with
  | '/' :: '/' :: rest => isAuthorityPath rest
  | cs =>
    match Text.cut? ':' cs with
    | some (scheme, '/' :: '/' :: rest) =>
      if isScheme scheme then isAuthorityPath rest
      else scheme.contains '/' && consistsOf isPathChar cs
    | some (scheme, rest) =>
      if isScheme scheme then consistsOf isPathChar rest
      else scheme.contains '/' && consistsOf isPathChar cs
    | none => consistsOf isPathChar cs

/-- Whether a text is a URI reference. -/
def isReference (uri : String) : Bool :=
  let cs := uri.toList
  let beforeFragment := cs.takeWhile (· != '#')
  let fragment := (cs.dropWhile (· != '#')).drop 1
  let hierarchy := beforeFragment.takeWhile (· != '?')
  let query := (beforeFragment.dropWhile (· != '?')).drop 1
  isHierarchy hierarchy && consistsOf isQueryChar query && consistsOf isQueryChar fragment

end TwelveD.Uri
