import DevRelay.Lib.Rewriting
import DevRelay.Lib.Words

/-!
# What a log line does not say

Four passes over a text: credentials in URLs, words that look like tokens, the values of
assignments to secret keys, and local paths.  Each pass reads what the one before it has left.
-/

namespace DevRelay.Logging

open DevRelay.Lib

def redacted : List Char := "<redacted>".toList

def redactedPath : List Char := "<path>".toList

def secretKeyFragments : List (List Char) :=
  ["api_key".toList, "apikey".toList, "auth".toList, "credential".toList, "password".toList,
    "passwd".toList, "private_key".toList, "secret".toList, "token".toList]

def urlSchemes : List (List Char) := ["https://".toList, "http://".toList, "ssh://".toList]

/-- `str::len` -/
def byteLength (text : List Char) : ℕ := (text.map Char.utf8Size).sum

/-! ## Credentials in URLs -/

/-- The characters at which `find_url_end` takes a URL to end. -/
def endsUrl (c : Char) : Bool := isSpace c || ['"', '\'', ')', ']'].contains c

/-- `url` begins with `scheme`; the last `@` before the first slash ends what is redacted. -/
def redactUrlUserinfo (url scheme : List Char) : List Char :=
  let authority := (url.drop scheme.length).takeWhile (· ≠ '/')
  match rsplitOnce '@' authority with
  | none => url
  | some (_, host) =>
    url.take scheme.length ++ redacted ++
      ('@' :: host ++ url.drop (scheme.length + authority.length))

/-- The URL at the beginning of a text, with its userinfo redacted.  No scheme begins with another
one, so the first that fits is the one that `find_next_scheme` finds here. -/
def credentialedUrl : RunStep Char := fun text =>
  (urlSchemes.find? fun scheme => scheme.isPrefixOf text).map fun scheme =>
    let url := text.takeWhile fun c => !endsUrl c
    (redactUrlUserinfo url scheme, url.length)

def redactCredentialedUrls (value : List Char) : List Char := rewrite credentialedUrl value

/-! ## Words that look like tokens -/

def isTokenChar (c : Char) : Bool :=
  c.isAlphanum || ['_', '-', '.', '/', '+', '='].contains c

def tokenCandidates (value : List Char) : List (List Char) :=
  (value.splitOnP fun c => !isTokenChar c).filter fun candidate => !candidate.isEmpty

def isTokenQuote (c : Char) : Bool :=
  ['"', '\'', '\x60', ',', ';', ')', ']', '}'].contains c

/-- `trim_matches` -/
def trimTokenValue (value : List Char) : List Char :=
  ((value.dropWhile isTokenQuote).reverse.dropWhile isTokenQuote).reverse

/-- What `logging.rs` and `policy.rs` both take for a token, once what surrounds it is trimmed.
`highEntropy` tells whether the entropy of its bytes is at least 4. -/
def isKnownToken (highEntropy : List Char → Bool) (token : List Char) : Bool :=
  let startsWith (word : String) : Bool := word.toList.isPrefixOf token
  if byteLength token = 20 && (startsWith "AKIA" || startsWith "ASIA") &&
      token.all fun c => c.isUpper || c.isDigit then
    true
  else if startsWith "github_pat_" && decide (40 ≤ byteLength token) then true
  else if ["ghp_", "gho_", "ghu_", "ghs_", "ghr_"].any startsWith &&
      decide (30 ≤ byteLength token) then
    true
  else if ["xoxb-", "xoxa-", "xoxp-", "xoxr-", "xoxs-"].any startsWith &&
      decide (20 ≤ byteLength token) then
    true
  else if startsWith "sk-" && decide (32 ≤ byteLength token) then highEntropy token
  else false

variable (highEntropy : List Char → Bool)

def looksLikeRawSecretToken (token : List Char) : Bool :=
  isKnownToken highEntropy (trimTokenValue token)

def rawSecretTokens (value : List Char) : List (List Char) :=
  (tokenCandidates value).filter (looksLikeRawSecretToken highEntropy)

def redactRawSecretTokens (value : List Char) : List Char :=
  (rawSecretTokens highEntropy value).foldl (fun text token => replaceAll token redacted text)
    value

/-! ## Assignments to secret keys -/

/-- The characters at which the value of an assignment ends. -/
def endsValue (c : Char) : Bool := isSpace c || [',', ';', '&'].contains c

/-- The assignment at the beginning of a text, its value redacted.  The key is compared in lower
case, and the white space in front of the value is kept. -/
def secretAssignment (key : List Char) : RunStep Char := fun text =>
  if key.isPrefixOf (text.map Char.toLower) then
    let blanks := (text.drop key.length).takeWhile isSpace
    let value := ((text.drop key.length).dropWhile isSpace).takeWhile fun c => !endsValue c
    some (text.take key.length ++ blanks ++ (if value.isEmpty then [] else redacted),
      key.length + blanks.length + value.length)
  else none

def redactAssignmentPrefix (value key : List Char) : List Char :=
  rewrite (secretAssignment key) value

def redactSecretAssignments (value : List Char) : List Char :=
  secretKeyFragments.foldl
    (fun text key => redactAssignmentPrefix (redactAssignmentPrefix text (key ++ ['=']))
      (key ++ [':'])) value

/-! ## The redactor -/

/-- The local paths as `to_string_lossy` spells them, the longest first. -/
structure LogRedactor where
  redactLocalPaths : Bool := false
  localPaths : List (List Char) := []

namespace LogRedactor

variable (redactor : LogRedactor)

def redactPaths (value : List Char) : List Char :=
  redactor.localPaths.foldl
    (fun text path => if path.isEmpty then text else replaceAll path redactedPath text) value

def redactText (value : List Char) : List Char :=
  let value := redactCredentialedUrls value
  let value := redactRawSecretTokens highEntropy value
  let value := redactSecretAssignments value
  if redactor.redactLocalPaths then redactor.redactPaths value else value

end LogRedactor

end DevRelay.Logging
