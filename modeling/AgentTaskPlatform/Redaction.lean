import AgentTaskPlatform.NestedValues
import AgentTaskPlatform.Urls
import AgentTaskPlatform.Utf8

/-!
The two redactors: `redact_for_log` for log lines and `_redact` for the data of stored log
events. The keys of a dictionary are strings and distinct.
-/

namespace AgentTaskPlatform.Redaction

open NestedValues Urls

inductive Leaf (Scalar : Type) where
  | text (content : List Char)
  | bytes (content : List UInt8)
  | other (scalar : Scalar)
  deriving DecidableEq, Repr

abbrev Data (Scalar : Type) := Value (List Char) (Leaf Scalar)

/-- `str.lower` knows the ASCII letters, and a text of characters that are in lower case stays
as it is. -/
structure Library extends Urls.Library where
  lower_ascii : ∀ text, text.all isAscii = true → lower text = lowerAscii text
  lower_lowered : ∀ text, ∀ char ∈ lower text, lower [char] = [char]
  lower_fixed : ∀ text, (∀ char ∈ text, lower [char] = [char]) → lower text = text

def redactedText : List Char := "***REDACTED***".toList

def withoutSeparators (text : List Char) : List Char :=
  (text.filter (· != '_')).filter (· != '-')

section Logs

def sensitiveKeys : List (List Char) :=
  ["authorization".toList, "api_key".toList, "apikey".toList, "api-key".toList,
    "x-api-key".toList, "password".toList, "passwd".toList, "secret".toList,
    "signing_secret".toList, "signature".toList, "token".toList, "access_token".toList,
    "ossaccesskeyid".toList]

variable (library : Library) (maxString : Nat)

def normalized (key : List Char) : List Char := withoutSeparators (library.lower key)

def isSensitiveForLog (key : List Char) : Bool :=
  sensitiveKeys.contains (library.lower key) || sensitiveKeys.contains (normalized library key)

structure SplitResult where
  scheme : List Char
  netloc : List Char
  path : List Char
  query : List Char
  fragment : List Char
  deriving DecidableEq

def urlsplit (url : List Char) : Except Exc SplitResult := do
  let (scheme, rest) := splitScheme (cleaned url)
  let (netloc, rest) := splitNetloc rest
  let (rest, fragment) := partition '#' rest
  let (path, query) := partition '?' rest
  checkNetloc library.toLibrary netloc
  return { scheme, netloc, path, query, fragment }

def urlunsplit (scheme netloc path : List Char) : List Char :=
  let absolute := if path ≠ [] ∧ path.head? ≠ some '/' then '/' :: path else path
  scheme ++ "://".toList ++ netloc ++ absolute

def safeUrl (value : List Char) : List Char :=
  match urlsplit library value with
  | .error _ => value
  | .ok parsed =>
      if parsed.scheme = [] ∨ parsed.netloc = [] then value
      else urlunsplit parsed.scheme parsed.netloc parsed.path

def truncate (text : List Char) : List Char :=
  if text.length > maxString then text.take maxString ++ "...<truncated>".toList else text

def shownText (text : List Char) : List Char :=
  truncate maxString (if listContains text "://".toList then safeUrl library text else text)

variable {Scalar : Type}

def leafForLog : Leaf Scalar → Leaf Scalar
  | .text content => .text (shownText library maxString content)
  | .bytes content => .text (shownText library maxString (Unquote.decode none content))
  | .other scalar => .other scalar

mutual

def redactForLog : Data Scalar → Data Scalar
  | .dict entries => .dict (redactEntriesForLog entries)
  | .list items => .list (redactItemsForLog items)
  | .tuple items => .list (redactItemsForLog items)
  | .leaf content => .leaf (leafForLog library maxString content)

def redactItemsForLog : List (Data Scalar) → List (Data Scalar)
  | [] => []
  | item :: rest => redactForLog item :: redactItemsForLog rest

def redactEntriesForLog : List (List Char × Data Scalar) → List (List Char × Data Scalar)
  | [] => []
  | (key, item) :: rest =>
      (key, if isSensitiveForLog library key then .leaf (.text redactedText)
        else redactForLog item) :: redactEntriesForLog rest

end

end Logs

section Records

variable (library : Library)

def credentialNames : List (List Char) :=
  ["password".toList, "secret".toList, "api_key".toList, "authorization".toList, "token".toList,
    "access_token".toList, "refresh_token".toList, "bearer_token".toList]

/-- `_is_sensitive_key`; the names of token counts are not sensitive, and neither is any other. -/
def isSensitiveKey (key : List Char) : Bool :=
  let lowered := library.lower key
  credentialNames.contains lowered || "_api_key".toList.isSuffixOf lowered ||
    "_secret".toList.isSuffixOf lowered

variable {Scalar : Type}

mutual

def redact : Data Scalar → Data Scalar
  | .dict entries => .dict (redactEntries entries)
  | .list items => .list (redactItems items)
  | .tuple items => .tuple items
  | .leaf content => .leaf content

def redactItems : List (Data Scalar) → List (Data Scalar)
  | [] => []
  | item :: rest => redact item :: redactItems rest

def redactEntries : List (List Char × Data Scalar) → List (List Char × Data Scalar)
  | [] => []
  | (key, item) :: rest =>
      (key, if isSensitiveKey library key then .leaf (.text redactedText) else redact item) ::
        redactEntries rest

end

end Records

end AgentTaskPlatform.Redaction
