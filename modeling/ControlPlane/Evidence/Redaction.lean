import ControlPlane.Lib.Runtime

/-!
# Evidence redaction

The fixed deterministic policy that every evidence payload passes before it is stored:
eleven text patterns applied one after another, and sensitive object keys whose values
are dropped. No caller passes known secrets, so that step is left out.

## Main definitions

* `redactText`, `redactJsonValue`, `redactEvidenceContent`
-/
namespace ControlPlane

open Regex Regex.Re

/-- The failures of the evidence domain, with their messages, and the store's refusal of
a row. -/
inductive EvidenceError where
  | notFound (message : String)
  | conflict (message : String)
  | validation (message : String)
  | integrity (message : String)
  deriving DecidableEq, Repr

/-! ### Patterns -/

/-- Patterns of the policy. -/
abbrev Pattern := Re CharClass

section Patterns
open CharClass

def cls (k : CharClass) : Pattern := char k
def oneOf (cs : String) : CharClass := chars cs.toList
/-- Exactly the characters of a word. -/
def lit (word : String) : Pattern := seqs (word.toList.map fun c => char (chars [c]))
/-- A word up to case. -/
def ci (word : String) : Pattern :=
  seqs (word.toList.map fun c => char (caseless (chars [c])))

def lowerLetter : CharClass := range 'a' 'z'
def upperLetter : CharClass := range 'A' 'Z'
def decimal : CharClass := range '0' '9'
def alpha : CharClass := union upperLetter lowerLetter
def alnum : CharClass := union alpha decimal

def spaces : Pattern := star (cls space)
def wordBoundary : Pattern := boundary word

def pemLabel : Pattern :=
  opt (seq (plus (cls (union (union upperLetter decimal) (oneOf " ")))) (lit " "))

def pemPrivateKey : Pattern :=
  seqs [lit "-----BEGIN ", pemLabel, lit "PRIVATE KEY-----",
    lazyStar (cls (compl (chars []))), lit "-----END ", pemLabel, lit "PRIVATE KEY-----"]

def authorizationHeader : Pattern :=
  seqs [wordBoundary,
    group (seqs [opt (ci "proxy-"), ci "authorization", spaces, lit ":", spaces]),
    plus (cls (compl (oneOf "\r\n")))]

def cookieHeader : Pattern :=
  seqs [wordBoundary, group (seqs [opt (ci "set-"), ci "cookie", spaces, lit ":", spaces]),
    plus (cls (compl (oneOf "\r\n")))]

def urlCredentials : Pattern :=
  seqs [wordBoundary,
    group (seqs [cls (caseless lowerLetter),
      star (cls (caseless (union (union lowerLetter decimal) (oneOf "+.-")))), lit "://"]),
    plus (cls (compl (union (oneOf "/:@") space))), lit ":",
    plus (cls (compl (union (oneOf "@/") space))), lit "@"]

def sensitiveName : Pattern :=
  let dash := opt (cls (oneOf "_-"))
  alts [seqs [ci "access", dash, ci "token"], seqs [ci "api", dash, ci "key"],
    seqs [ci "client", dash, ci "secret"], seqs [ci "gh", dash, ci "token"],
    ci "authorization", ci "cookie", ci "passphrase", ci "password",
    seqs [ci "private", dash, ci "key"], ci "pwd", seqs [ci "refresh", dash, ci "token"],
    ci "secret", seqs [ci "session", dash, ci "token"], ci "token"]

def fieldPrefix : Pattern := star (seq (plus (cls (caseless alnum))) (cls (oneOf "_-")))
def sensitiveField : Pattern := seq fieldPrefix sensitiveName

def sensitiveQuery : Pattern :=
  seq (group (seqs [cls (oneOf "?&"), sensitiveField, lit "="]))
    (star (cls (compl (union (oneOf "&#") space))))

def authorizationAssignment : Pattern :=
  seqs [wordBoundary, group (seqs [fieldPrefix, ci "authorization", spaces, lit "=", spaces]),
    plus (cls (compl (oneOf "\r\n")))]

def sensitiveAssignment : Pattern :=
  seqs [notAfter (oneOf "?&"), wordBoundary,
    group (seqs [sensitiveField, spaces, cls (oneOf ":="), spaces]),
    notBefore (ci "[redacted:"),
    alts [seqs [lit "\"", star (cls (compl (oneOf "\""))), lit "\""],
      seqs [lit "'", star (cls (compl (oneOf "'"))), lit "'"],
      plus (cls (compl (union space (oneOf ",;"))))]]

def opaqueToken : Pattern :=
  seqs [wordBoundary,
    alts [seqs [lit "gh", cls (oneOf "pousr"), lit "_", atLeast 20 (cls alnum)],
      seqs [lit "github_pat_", atLeast 20 (cls (union alnum (oneOf "_")))],
      seqs [lit "sk-", atLeast 20 (cls (union alnum (oneOf "_-")))],
      seqs [lit "xox", cls (oneOf "baprs"), lit "-",
        atLeast 20 (cls (union alnum (oneOf "-")))],
      seqs [lit "AKIA", exactly 16 (cls (union upperLetter decimal))]],
    wordBoundary]

def jwt : Pattern :=
  let part := atLeast 10 (cls (union alnum (oneOf "_-")))
  seqs [wordBoundary, lit "eyJ", part, lit ".", part, lit ".", part, wordBoundary]

def email : Pattern :=
  seqs [notAfter (union word (oneOf ".+-")), plus (cls (union word (oneOf ".+-"))), lit "@",
    plus (cls (union word (oneOf ".-"))), lit ".", atLeast 2 (cls alpha),
    notBefore (cls (union word (oneOf "-")))]

def phone : Pattern :=
  let separator := cls (union space (oneOf ".-"))
  seqs [notAfter word, opt (seqs [opt (lit "+"), lit "1", opt separator]), opt (lit "("),
    exactly 3 (cls digit), opt (lit ")"), separator, exactly 3 (cls digit), separator,
    exactly 4 (cls digit), notBefore (cls word)]

end Patterns

/-! ### Text -/

/-- One step of the policy: the rule counted, its pattern, what replaces a match. -/
structure RedactionRule where
  rule : String
  pattern : Pattern
  replacement : Option (List Char) → List Char

def RedactionRule.constant (rule : String) (pattern : Pattern) (text : String) :
    RedactionRule :=
  ⟨rule, pattern, fun _ => text.toList⟩

/-- The captured text is kept, the rest of the match replaced. -/
def RedactionRule.keeping (rule : String) (pattern : Pattern) (text : String) :
    RedactionRule :=
  ⟨rule, pattern, fun captured => captured.getD [] ++ text.toList⟩

/-- The patterns in the order the policy applies them. -/
def redactionRules : List RedactionRule :=
  [.constant "private-key" pemPrivateKey "[REDACTED:PRIVATE_KEY]",
    .keeping "authorization" authorizationHeader "[REDACTED:AUTHORIZATION]",
    .keeping "authorization-assignment" authorizationAssignment "[REDACTED:AUTHORIZATION]",
    .keeping "cookie" cookieHeader "[REDACTED:COOKIE]",
    .keeping "url-credentials" urlCredentials "[REDACTED:CREDENTIALS]@",
    .keeping "query-secret" sensitiveQuery "[REDACTED:QUERY_SECRET]",
    .keeping "assigned-secret" sensitiveAssignment "[REDACTED:ASSIGNED_SECRET]",
    .constant "opaque-token" opaqueToken "[REDACTED:OPAQUE_TOKEN]",
    .constant "jwt" jwt "[REDACTED:JWT]",
    .constant "email" email "[REDACTED:EMAIL]",
    .constant "phone" phone "[REDACTED:PHONE]"]

/-- How often each rule applied. -/
abbrev Manifest := List (String × ℕ)

def increment (counts : Manifest) (rule : String) (amount : ℕ) : Manifest :=
  if amount = 0 then counts
  else if counts.any (·.1 == rule) then
    counts.map fun c => if c.1 == rule then (c.1, c.2 + amount) else c
  else counts ++ [(rule, amount)]

/-- Line ends normalised: `\r\n` first, then every other `\r`. -/
def normalizeNewlines : List Char → List Char
  | '\r' :: '\n' :: cs => '\n' :: normalizeNewlines cs
  | '\r' :: cs => '\n' :: normalizeNewlines cs
  | c :: cs => c :: normalizeNewlines cs
  | [] => []

def applyRule (u : Unicode) (state : List Char × Manifest) (rule : RedactionRule) :
    List Char × Manifest :=
  let (replaced, count) := rule.pattern.subn (CharClass.holds u) rule.replacement state.1
  (replaced, increment state.2 rule.rule count)

def redactText (u : Unicode) (value : String) (counts : Manifest) : String × Manifest :=
  let (redacted, counts) :=
    redactionRules.foldl (applyRule u) (normalizeNewlines value.toList, counts)
  (String.ofList redacted, counts)

/-! ### JSON values -/

def sensitiveKeyFragments : List String :=
  ["accesstoken", "apikey", "authorization", "clientsecret", "cookie", "credential",
    "passphrase", "password", "privatekey", "pwd", "refreshtoken", "secret", "sessiontoken",
    "token"]

/-- Whether a text occurs in another. -/
def occursIn (part text : List Char) : Bool := text.tails.any (part.isPrefixOf ·)

def sensitiveKey (u : Unicode) (key : String) : Bool :=
  let normalized := (key.toList.filter u.isAlnum).flatMap u.lowerChar
  sensitiveKeyFragments.any fun fragment => occursIn fragment.toList normalized

def maxEvidenceBytes : ℕ := 1024 * 1024
def maxEvidenceDepth : ℕ := 32
def maxEvidenceNodes : ℕ := 100000

/-- The running counts of one redaction. -/
structure Tally where
  nodes : ℕ := 0
  counts : Manifest := []
  deriving DecidableEq

/-- A value entered: the limits on nesting and on the number of values. -/
def Tally.enter (depth : ℕ) (t : Tally) : Except EvidenceError Tally :=
  if maxEvidenceDepth < depth then
    .error (.validation "evidence content exceeds the nesting limit")
  else if maxEvidenceNodes < t.nodes + 1 then
    .error (.validation "evidence content exceeds the node limit")
  else .ok { t with nodes := t.nodes + 1 }

mutual

def redactJsonValue (u : Unicode) (depth : ℕ) : Json → Tally → Except EvidenceError (Json × Tally)
  | .null, t => do return (.null, ← t.enter depth)
  | .bool b, t => do return (.bool b, ← t.enter depth)
  | .int n, t => do return (.int n, ← t.enter depth)
  | .float q, t => do return (.float q, ← t.enter depth)
  | .str s, t => do
    let t ← t.enter depth
    let (s, counts) := redactText u s t.counts
    return (.str s, { t with counts })
  | .arr items, t => do
    let (items, t) ← redactItems u (depth + 1) items (← t.enter depth)
    return (.arr items, t)
  | .obj fields, t => do
    let (fields, t) ← redactFields u (depth + 1) [] fields (← t.enter depth)
    return (.obj fields, t)

def redactItems (u : Unicode) (depth : ℕ) :
    List Json → Tally → Except EvidenceError (List Json × Tally)
  | [], t => .ok ([], t)
  | child :: rest, t => do
    let (child, t) ← redactJsonValue u depth child t
    let (rest, t) ← redactItems u depth rest t
    return (child :: rest, t)

/-- The fields of an object after the keys already taken. -/
def redactFields (u : Unicode) (depth : ℕ) (taken : List String) :
    List (String × Json) → Tally → Except EvidenceError (List (String × Json) × Tally)
  | [], t => .ok ([], t)
  | (key, child) :: rest, t => do
    if taken.contains key then
      throw (.validation "evidence object contains a duplicate key")
    let (child, t) ←
      if sensitiveKey u key then
        pure (.str "[REDACTED:SENSITIVE_FIELD]",
          { t with counts := increment t.counts "sensitive-field" 1 })
      else redactJsonValue u depth child t
    let (rest, t) ← redactFields u depth (key :: taken) rest t
    return ((key, child) :: rest, t)

end

/-! ### Content -/

/-- The two media types evidence has. -/
inductive MediaType where
  | json
  | text
  deriving DecidableEq, Repr

def MediaType.str : MediaType → String
  | json => "application/json"
  | text => "text/plain; charset=utf-8"

/-- Canonical redacted content ready to enter the evidence envelope. The canonical text
stands for its UTF-8 bytes. -/
structure RedactedContent where
  value : Json
  mediaType : MediaType
  canonical : String
  contentHash : String
  manifest : Manifest

def digest (rt : Runtime) (payload : String) : String := "sha256:" ++ rt.sha256 payload

def sealContent (rt : Runtime) (mediaType : MediaType) (value : Json) (canonical : String)
    (counts : Manifest) : Except EvidenceError RedactedContent :=
  if maxEvidenceBytes < canonical.utf8ByteSize then
    .error (.validation "evidence content exceeds the size limit")
  else .ok
    { value, mediaType, canonical
      contentHash := digest rt canonical
      manifest := counts.insertionSort fun a b => a.1 ≤ b.1 }

def redactEvidenceContent (rt : Runtime) (payload : Json) (mediaType : MediaType) :
    Except EvidenceError RedactedContent :=
  match mediaType with
  | .json => do
    let (value, t) ← redactJsonValue rt.unicode 0 payload {}
    sealContent rt .json value (rt.dumps value) t.counts
  | .text =>
    match payload with
    | .str s =>
      let (s, counts) := redactText rt.unicode s []
      sealContent rt .text (.str s) s counts
    | _ => .error (.validation "text evidence must be text or UTF-8 bytes")

end ControlPlane
