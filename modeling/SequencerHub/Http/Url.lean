import SequencerHub.Text.Octets

/-! Addresses in the form in which a client sends and reports them: the host in lower case, no default port, no
credentials, no segments of dots, and escapes for characters that may not stand in an address. -/
namespace SequencerHub.Url

inductive Fault
  | emptyHost
  | badPort
  deriving DecidableEq

def Fault.message : Fault → String
  | emptyHost => "empty host"
  | badPort => "invalid port number"

def isSlash (c : Char) : Bool := c == '/' || c == '\\'

/-- Whether a character has to be escaped in front of the query. -/
def isUnsafeInPath (c : Char) : Bool :=
  c ≤ ' ' || '\x7f' ≤ c || "\"#<>?^\x60\x7b\x7d".toList.contains c

def isUnsafeInQuery (c : Char) : Bool :=
  c ≤ ' ' || '\x7f' ≤ c || "\"#<>\x27".toList.contains c

def isUnsafeInFragment (c : Char) : Bool :=
  c ≤ ' ' || '\x7f' ≤ c || "\"<>\x60".toList.contains c

def hexDigit (n : Nat) : Char := (Nat.digitChar n).toUpper

/-- The octets of unsafe characters in hexadecimal, each behind a percent sign. -/
def escape (isUnsafe : Char → Bool) (cs : List Char) : List Char :=
  cs.flatMap fun c =>
    if isUnsafe c then
      (Octets.encode [c]).flatMap fun b => ['%', hexDigit (b.toNat / 16), hexDigit (b.toNat % 16)]
    else [c]

def segments : List Char → List (List Char)
  | [] => [[]]
  | c :: cs =>
    match segments cs with
    | [] => [[c]]
    | s :: more => if isSlash c then [] :: s :: more else (c :: s) :: more

def plainDots : List Char → List Char
  | '%' :: '2' :: e :: r => if e == 'e' || e == 'E' then '.' :: plainDots r else '%' :: '2' :: plainDots (e :: r)
  | c :: r => c :: plainDots r
  | [] => []

/-- Follows segments of dots; `above` holds the segments so far, the innermost first. -/
def resolve (above : List (List Char)) : List (List Char) → List (List Char)
  | [] => above.reverse
  | s :: more =>
    let (above, stays) :=
      if plainDots s = ['.', '.'] then (above.tail, false)
      else if plainDots s = ['.'] then (above, false)
      else (escape isUnsafeInPath s :: above, true)
    if more.isEmpty && !stays then (([] : List Char) :: above).reverse else resolve above more

def path (cs : List Char) : List Char :=
  '/' :: List.intercalate ['/'] (resolve [] (segments cs))

/-- The text from a separator on, behind the text in front of it. -/
def cutAt (separator : Char) (cs : List Char) : List Char × List Char := cs.span (· != separator)

def authority (defaultPort : Nat) (cs : List Char) : Except Fault (List Char) := do
  let cs := (cs.reverse.takeWhile (· != '@')).reverse
  let (digits, front) := cs.reverse.span Char.isDigit
  let (host, port) := match front with
    | ':' :: host => (host.reverse, digits.reverse)
    | _ => (cs, [])
  if host.isEmpty then throw .emptyHost
  let host := host.map Char.toLower
  let n := port.foldl (fun n c => 10 * n + (c.toNat - '0'.toNat)) 0
  if port.isEmpty || n = defaultPort then return host
  else if 0x10000 ≤ n then throw .badPort
  else return host ++ ':' :: (toString n).toList

def locator (defaultPort : Nat) (cs : List Char) : Except Fault (List Char) := do
  let cs := (cs.filter fun c => c != '\t' && c != '\n' && c != '\r').dropWhile isSlash
  let (front, fragment) := cutAt '#' cs
  let (front, query) := cutAt '?' front
  let (host, rest) := front.span fun c => !isSlash c
  let host ← authority defaultPort host
  return host ++ path rest.tail ++ escape isUnsafeInQuery query ++
    fragment.take 1 ++ escape isUnsafeInFragment (fragment.drop 1)

/-- The canonical form of an address of the wire protocol. -/
def canonical (url : String) : Except Fault String :=
  match url.toList with
  | 'h' :: 't' :: 't' :: 'p' :: 's' :: ':' :: r => (fun cs => "https://" ++ String.ofList cs) <$> locator 443 r
  | 'h' :: 't' :: 't' :: 'p' :: ':' :: r => (fun cs => "http://" ++ String.ofList cs) <$> locator 80 r
  | _ => .ok url

end SequencerHub.Url
