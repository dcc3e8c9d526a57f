import AccessGate.Net.Reader
import AccessGate.Text.Blank
import AccessGate.Text.Utf8

/-!
# Addresses of services

Of a service's address only this matters before a call: whether it is an address of the web, that is
`http` or `https` with a host that can be looked up (`UrlForm.of`). As browsers read them,

* control characters and spaces around the address do not count, nor do tabs and line ends inside;
* any number of slashes of either direction stands between scheme and host;
* the host may be percent-encoded; one that ends in a number has to be a version 4 address, in
  decimal, octal or hexadecimal parts, and one in brackets a version 6 address.
-/

namespace AccessGate

/-- What a text is as the address of a service. -/
inductive UrlForm where
  /-- An address of the web. -/
  | web
  /-- A scheme of another kind, with a host. -/
  | other
  /-- No scheme, or a scheme without a host. -/
  | hostless
  | malformed
  deriving DecidableEq, Repr

namespace UrlForm

/-! ## 1. Pieces -/

/-- The characters that count. -/
def relevant (cs : List Char) : List Char :=
  let outer (c : Char) : Bool := decide (c.toNat ≤ 0x20)
  ((cs.dropWhile outer).reverse.dropWhile outer).reverse.filter fun c =>
    !(c == '\t' || c == '\n' || c == '\r')

/-- The lower-case scheme before the first colon, and what follows. -/
def scheme? (cs : List Char) : Option (List Char × List Char) :=
  let name := cs.takeWhile (· ≠ ':')
  match name, cs.dropWhile (· ≠ ':') with
  | c :: _, _ :: rest =>
    if c.isAlpha && name.all fun d => d.isAlphanum || d == '+' || d == '-' || d == '.' then
      some (name.map Char.toLower, rest)
    else none
  | _, _ => none

/-- Ends the authority of an address of the web. -/
def isEnd (c : Char) : Bool := c == '/' || c == '\\' || c == '?' || c == '#'

/-- The authority without the user before its last `@`. -/
def withoutUser (authority : List Char) : List Char :=
  (authority.reverse.takeWhile (· ≠ '@')).reverse

/-- The octets of a host, percent-encoded pairs resolved. -/
def unquoted : List Char → Bytes
  | '%' :: a :: b :: rest =>
    match Hex.decodeChars? [a, b] with
    | some bs => bs ++ unquoted rest
    | none => 0x25 :: unquoted (a :: b :: rest)
  | c :: rest => Utf8.encodeChar c ++ unquoted rest
  | [] => []
termination_by cs => cs.length

/-! ## 2. Hosts -/

/-- A number in decimal, after `0` in octal, after `0x` in hexadecimal. -/
def numeral? (cs : List Char) : Option Nat :=
  let inBase (base : Nat) (ds : List Char) : Option Nat :=
    ds.foldlM (fun n c =>
      match Hex.value? c with
      | some d => if d < base then some (n * base + d) else none
      | none => none) 0
  match cs with
  | [] => none
  | '0' :: 'x' :: rest | '0' :: 'X' :: rest => inBase 16 rest
  | '0' :: d :: rest => inBase 8 (d :: rest)
  | _ => inBase 10 cs

/-- The parts between dots; a dot at the end does not count. -/
def parts (host : List Char) : List (List Char) :=
  let ps := Text.splitChars (· == '.') host
  if ps.length > 1 ∧ ps.getLast? = some [] then ps.dropLast else ps

/-- The last part is a number, if perhaps a bad one. -/
def endsInNumber (host : List Char) : Bool :=
  match (parts host).getLast? with
  | some part => !part.isEmpty && (part.all Char.isDigit || (numeral? part).isSome)
  | none => false

/-- The parts make a version 4 address; the last one fills up what the others leave. -/
def isAddress4 (host : List Char) : Bool :=
  match (parts host).mapM numeral? with
  | none => false
  | some ns =>
    match ns.getLast? with
    | some last => ns.length ≤ 4 && ns.dropLast.all (· ≤ 255) && last < 1 <<< (8 * (5 - ns.length))
    | none => false

/-- The character can stand in a domain. -/
def isDomainChar (c : Char) : Bool :=
  c.isAlphanum || c.toNat ≥ 128 || "-._~!$&'()*+,;=".toList.contains c

/-- The host of an address of the web. -/
def isHost (host : List Char) : Bool :=
  match host with
  | '[' :: rest => rest.getLast? = some ']' && (Ipv6.parseChars? rest.dropLast).isSome
  | _ =>
    let domain := Utf8.decodeCharsLossy (unquoted host)
    !domain.isEmpty && domain.all isDomainChar && (!endsInNumber domain || isAddress4 domain)

/-- The port after a host: nothing, or a colon and digits up to the largest port. -/
def isPortPart (cs : List Char) : Bool :=
  match cs with
  | [] | [':'] => true
  | ':' :: digits =>
    digits.all Char.isDigit && match Numeral.parseChars Numeral.max16 digits with
      | .ok _ => true
      | .error _ => false
  | _ => false

/-- Host and port of an address of the web. -/
def isAuthority (authority : List Char) : Bool :=
  let place := withoutUser authority
  match place with
  | '[' :: _ =>
    match place.dropWhile (· ≠ ']') with
    | _ :: port => isHost (place.takeWhile (· ≠ ']') ++ [']']) && isPortPart port
    | [] => false
  | _ => isHost (place.takeWhile (· ≠ ':')) && isPortPart (place.dropWhile (· ≠ ':'))

/-! ## 3. The whole -/

/-- What a text is as the address of a service. -/
def of (text : String) : UrlForm :=
  match scheme? (relevant text.toList) with
  | none => hostless
  | some (scheme, rest) =>
    if scheme = "http".toList ∨ scheme = "https".toList then
      let rest := rest.dropWhile fun c => c == '/' || c == '\\'
      if isAuthority (rest.takeWhile fun c => !isEnd c) then web else malformed
    else if "//".toList.isPrefixOf rest then other
    else hostless

end UrlForm

end AccessGate
