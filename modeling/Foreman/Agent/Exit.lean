/-
# How an agent's exit is understood

The exit code and the error output of an agent tell whether the attempt is worth another one.

* Exit 124 is a timeout.
* Exit 1 is worth another attempt only if the output speaks of a rate limit or of a network that
  failed; a rate limit is looked for first.
* Everything else is fatal.

A sign may stand anywhere in the output.  Most are words, found whatever the case of their
letters; the names of system errors are found only as they are written.

Of an attempt that failed a reason is kept, which is the last line of the error output with the
exit code.  It is cut to 500 bytes, since it goes into the state and into the prompt of the next
attempt.
-/
import Foreman.Text.Regex
import Foreman.Text.Search
import Foreman.Worker.Basic

namespace Foreman

/-- Whether a failed attempt is worth another one (`ExitClass`). -/
inductive ExitClass where
  | retryable (cause : RetryCause)
  | fatal
deriving DecidableEq, Repr

namespace ExitClass

def isRetryable : ExitClass → Bool
  | retryable _ => true
  | fatal => false

def cause? : ExitClass → Option RetryCause
  | retryable cause => some cause
  | fatal => none

end ExitClass

namespace Agent

open Text (Regex)

/-- The exit code of an attempt that ran out of time. -/
def timeoutExit : Int := 124

/-- The exit code of an agent for any failure. -/
def genericExit : Int := 1

/-- Signs of a rate limit (`rate_limit_patterns`). -/
def rateLimitSigns : List Regex :=
  [ -- the boundaries keep the digits apart from identifiers
    .all [.boundary, .exactly "429", .boundary],
    .all [.anyCase "rate", .opt (.one fun c => c = '_' || c = '-' || Text.isBlank c),
      .anyCase "limit", .opt (.either (.anyCase "ed") (.anyCase "ing"))],
    .phrase ["too", "many", "requests"],
    .all [.anyCase "quota", .blanks, .either (.anyCase "exceeded") (.anyCase "limit")],
    .phrase ["usage", "limit"],
    .all [.boundary, .anyCase "overloaded", .boundary] ]

/-- Signs of a network that failed for a while (`network_patterns`). -/
def networkSigns : List Regex :=
  [ .phrase ["connection", "refused"],
    .phrase ["connection", "reset"],
    .all [.boundary, .anyCase "time", .opt (.anyCase "d"), .blanks, .anyCase "out", .boundary],
    .phrase ["could", "not", "resolve", "host"],
    .anyCase "getaddrinfo",
    .phrase ["name", "resolution"],
    .phrase ["temporary", "failure", "in", "name"],
    .exactly "ECONNRESET",
    .exactly "ECONNREFUSED",
    .exactly "ETIMEDOUT",
    .exactly "ENOTFOUND" ]

def looksRateLimited (stderr : String) : Bool := rateLimitSigns.any (·.foundIn stderr)

def looksLikeNetworkFailure (stderr : String) : Bool := networkSigns.any (·.foundIn stderr)

/-- What an exit code other than zero stands for (`classify_exit`). -/
def classifyExit (code : Int) (stderr : String) : ExitClass :=
  if code = timeoutExit then .retryable .timeout
  else if code = genericExit && looksRateLimited stderr then .retryable .rateLimited
  else if code = genericExit && looksLikeNetworkFailure stderr then .retryable .transientNetwork
  else .fatal

/-! ## The reason that is kept

Texts are measured in bytes of UTF-8, and a cut may not fall inside of a character.  The search
for the place of the cut goes backwards from the limit, and as no character is longer than four
bytes, it takes three steps at most. -/

/-- The longest reason, in bytes of UTF-8. -/
def reasonLimit : Nat := 500

/-- The bytes a text takes in UTF-8. -/
def byteCount : List Char → Nat
  | [] => 0
  | c :: cs => c.utf8Size + byteCount cs

/-- A character starts at that byte of the text, or the text ends there. -/
def isBoundary (cs : List Char) (byte : Nat) : Bool :=
  match byte, cs with
  | 0, _ => true
  | _ + 1, [] => false
  | n + 1, c :: rest => if n + 1 < c.utf8Size then false else isBoundary rest (n + 1 - c.utf8Size)

/-- The last boundary that is not behind the byte. -/
def boundaryBefore (cs : List Char) : Nat → Nat
  | 0 => 0
  | n + 1 => if isBoundary cs (n + 1) then n + 1 else boundaryBefore cs n

/-- The characters that end within that many bytes. -/
def takeBytes (limit : Nat) : List Char → List Char
  | [] => []
  | c :: rest => if c.utf8Size ≤ limit then c :: takeBytes (limit - c.utf8Size) rest else []

/-- The text, cut at the last boundary within the limit.  A text that fits is left whole. -/
def cutToLimit (cs : List Char) : List Char :=
  if byteCount cs ≤ reasonLimit then cs
  else takeBytes (boundaryBefore cs reasonLimit) cs

/-- The last line that is not blank, without the blanks around it. -/
def lastLine? (stderr : String) : Option String :=
  ((Text.lines stderr).map Text.trim).reverse.find? (· ≠ "")

/-- The whole reason: the exit code and the last line of the error output.  An output that is blank
is told as none. -/
def fullReason (code : Int) (stderr : String) : String :=
  "exit code " ++ toString code ++ ": " ++ (lastLine? stderr).getD "no stderr output"

/-- The reason that is kept for a failed attempt (`failure_reason`). -/
def failureReason (code : Int) (stderr : String) : String :=
  String.ofList (cutToLimit (fullReason code stderr).toList)

end Agent
end Foreman
