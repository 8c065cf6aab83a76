/-
# Reading shell scripts

A script is read in one pass over its characters.  Every function gives what it read and the rest
of the text, and fails if the text breaks off or is not understood.
-/
import Foreman.Shell.Basic
import Foreman.Text.Search

namespace Foreman
namespace Shell

/-! ## 1. Characters

Blanks, comments and the characters that end a word.  A backslash before a line end joins two
lines. -/

/-- A character that ends a word unless it is quoted. -/
def endsWord (c : Char) : Bool := " \t\n;&|<>()".toList.contains c

def isNameStart (c : Char) : Bool := c.isAlpha || c = '_'

def isNameChar (c : Char) : Bool := c.isAlphanum || c = '_'

/-- A parameter with a name of one character. -/
def isSpecial (c : Char) : Bool := "@*#?$!-0123456789".toList.contains c

/-- Over blanks, joined lines and a comment. -/
def skipGaps : Nat → List Char → List Char
  | 0, cs => cs
  | fuel + 1, cs =>
    match cs with
    | ' ' :: r => skipGaps fuel r
    | '\t' :: r => skipGaps fuel r
    | '\\' :: '\n' :: r => skipGaps fuel r
    | '#' :: r => r.dropWhile (· ≠ '\n')
    | cs => cs

/-- Over gaps and line ends. -/
def skipLines : Nat → List Char → List Char
  | 0, cs => cs
  | fuel + 1, cs =>
    match skipGaps (cs.length + 1) cs with
    | '\n' :: r => skipLines fuel r
    | cs => cs

def gaps (cs : List Char) : List Char := skipGaps (cs.length + 1) cs

def lines (cs : List Char) : List Char := skipLines (cs.length + 1) cs

/-! ## 2. Words

A word is made of parts: texts, quoted or not, and expansions.  A part remembers whether it was
quoted, since only others are split and matched. -/

/-- The text up to the bracket that closes it; brackets and quotation marks inside are counted.
`depth` is the number of brackets still open, `quote` the mark that is open. -/
def upToClose (opening closing : Char) :
    Nat → Option Char → List Char → Option (List Char × List Char)
  | _, _, [] => none
  | depth, quote, '\\' :: c :: cs =>
    if quote = some '\'' then
      if c = '\'' then
        (upToClose opening closing depth none cs).map fun (a, r) => ('\\' :: c :: a, r)
      else (upToClose opening closing depth quote cs).map fun (a, r) => ('\\' :: c :: a, r)
    else (upToClose opening closing depth quote cs).map fun (a, r) => ('\\' :: c :: a, r)
  | depth, some q, c :: cs =>
    let quote := if c = q then none else some q
    (upToClose opening closing depth quote cs).map fun (a, r) => (c :: a, r)
  | depth, none, c :: cs =>
    if c = '\'' || c = '"' then
      (upToClose opening closing depth (some c) cs).map fun (a, r) => (c :: a, r)
    else if c = closing then
      match depth with
      | 0 => some ([], cs)
      | d + 1 => (upToClose opening closing d none cs).map fun (a, r) => (c :: a, r)
    else
      let depth := if c = opening then depth + 1 else depth
      (upToClose opening closing depth none cs).map fun (a, r) => (c :: a, r)

/-- The rule between braces behind the name of a parameter, and its argument. -/
def parameterRule (cs : List Char) : String × String :=
  let rule :=
    match cs with
    | ':' :: c :: _ => [':', c]
    | '#' :: '#' :: _ => ['#', '#']
    | '%' :: '%' :: _ => ['%', '%']
    | c :: _ => [c]
    | [] => []
  (String.ofList rule, String.ofList (cs.drop rule.length))

/-- What stands behind a dollar sign. -/
def dollar? (quoted : Bool) (cs : List Char) : Option (Part × List Char) :=
  match cs with
  | '(' :: '(' :: r =>
    match upToClose '(' ')' 0 none r with
    | some (body, ')' :: rest) => some (.sum (String.ofList body) quoted, rest)
    | _ => none
  | '(' :: r =>
    (upToClose '(' ')' 0 none r).map fun (body, rest) => (.output (String.ofList body) quoted, rest)
  | '\x7b' :: '#' :: c :: r =>
    if c = '\x7d' then some (.parameter "#" "" "" quoted, r)
    else
      (upToClose '\x7b' '\x7d' 0 none (c :: r)).map fun (body, rest) =>
        (.parameter (String.ofList body) "length" "" quoted, rest)
  | '\x7b' :: r =>
    match upToClose '\x7b' '\x7d' 0 none r with
    | none => none
    | some (body, rest) =>
      let name :=
        match body with
        | c :: _ => if isNameStart c then body.takeWhile isNameChar else [c]
        | [] => []
      if name = [] then none
      else
        let (rule, argument) := parameterRule (body.drop name.length)
        some (.parameter (String.ofList name) rule argument quoted, rest)
  | c :: r =>
    if isNameStart c then
      let name := (c :: r).takeWhile isNameChar
      some (.parameter (String.ofList name) "" "" quoted, (c :: r).drop name.length)
    else if isSpecial c then some (.parameter (String.ofList [c]) "" "" quoted, r)
    else some (.text "$" quoted, c :: r)
  | [] => some (.text "$" quoted, [])

/-- Characters as a part, if there are any. -/
def textPart (quoted : Bool) (acc : List Char) : List Part :=
  if acc = [] then [] else [.text (String.ofList acc.reverse) quoted]

/-- The script between backquotes. -/
def backquoted : List Char → Option (List Char × List Char)
  | [] => none
  | '`' :: cs => some ([], cs)
  | '\\' :: '`' :: cs => (backquoted cs).map fun (a, r) => ('`' :: a, r)
  | c :: cs => (backquoted cs).map fun (a, r) => (c :: a, r)

/-- The parts between double quotation marks; `acc` holds the characters since the last part. -/
def quotedParts : Nat → List Char → List Char → Option (List Part × List Char)
  | 0, _, _ => none
  | fuel + 1, acc, cs =>
    match cs with
    | [] => none
    | '"' :: rest => some (textPart true acc, rest)
    | '\\' :: '\n' :: rest => quotedParts fuel acc rest
    | '\\' :: c :: rest =>
      if "$`\"\\".toList.contains c then quotedParts fuel (c :: acc) rest
      else quotedParts fuel (c :: '\\' :: acc) rest
    | '$' :: rest =>
      match dollar? true rest with
      | none => none
      | some (p, rest) =>
        (quotedParts fuel [] rest).map fun (ps, r) => (textPart true acc ++ p :: ps, r)
    | '`' :: rest =>
      match backquoted rest with
      | none => none
      | some (script, rest) =>
        (quotedParts fuel [] rest).map fun (ps, r) =>
          (textPart true acc ++ .output (String.ofList script) true :: ps, r)
    | c :: rest => quotedParts fuel (c :: acc) rest

/-- The parts of a word up to its end. -/
def wordParts : Nat → List Char → List Char → Option (Word × List Char)
  | 0, _, _ => none
  | fuel + 1, acc, cs =>
    let more (p : List Part) (rest : List Char) : Option (Word × List Char) :=
      (wordParts fuel [] rest).map fun (ps, r) => (textPart false acc ++ p ++ ps, r)
    match cs with
    | [] => some (textPart false acc, [])
    | '\'' :: rest =>
      let body := rest.takeWhile (· ≠ '\'')
      match rest.drop body.length with
      | '\'' :: rest => more [.text (String.ofList body) true] rest
      | _ => none
    | '"' :: rest =>
      match quotedParts (rest.length + 1) [] rest with
      | none => none
      | some (ps, rest) => more (if ps = [] then [.text "" true] else ps) rest
    | '\\' :: '\n' :: rest => wordParts fuel acc rest
    | '\\' :: c :: rest => more [.text (String.ofList [c]) true] rest
    | '$' :: rest =>
      match dollar? false rest with
      | none => none
      | some (p, rest) => more [p] rest
    | '`' :: rest =>
      match backquoted rest with
      | none => none
      | some (script, rest) => more [.output (String.ofList script) false] rest
    | c :: rest =>
      if endsWord c then some (textPart false acc, c :: rest) else wordParts fuel (c :: acc) rest

/-- A word that is there. -/
def word? (cs : List Char) : Option (Word × List Char) :=
  match wordParts (cs.length + 1) [] cs with
  | some ([], _) => none
  | found => found

/-! ## 3. Redirections

A redirection may stand anywhere in a simple command and behind a compound one.  The text of one
that reads from the script itself stands on the lines behind it. -/

/-- The lines of a text up to one that is the mark. -/
def hereLines (mark : String) : Nat → List Char → Option (List Char × List Char)
  | 0, _ => none
  | fuel + 1, cs =>
    if cs = [] then none
    else
      let line := cs.takeWhile (· ≠ '\n')
      let rest := (cs.drop line.length).drop 1
      if String.ofList line = mark then some ([], rest)
      else (hereLines mark fuel rest).map fun (body, r) => (line ++ '\n' :: body, r)

/-- A redirection behind its operator. -/
def target? (stream : Nat) (d : Direction) (cs : List Char) : Option (Redirect × List Char) :=
  (word? (gaps cs)).map fun (w, rest) => (⟨stream, d, w⟩, rest)

/-- A text that follows the line: it is taken out from behind the line's end. -/
def here? (stream : Nat) (cs : List Char) : Option (Redirect × List Char) :=
  match word? (gaps cs) with
  | none => none
  | some (mark, rest) =>
    let quoted := mark.any fun p =>
      match p with
      | .text _ q => q
      | _ => false
    let name := String.join (mark.map fun p =>
      match p with
      | .text s _ => s
      | _ => "")
    let line := rest.takeWhile (· ≠ '\n')
    match hereLines name (rest.length + 1) ((rest.drop line.length).drop 1) with
    | none => none
    | some (body, after) =>
      let w : Option Word :=
        if quoted then some [.text (String.ofList body) true]
        else (quotedParts (body.length + 2) [] (body ++ ['"'])).map Prod.fst
      w.map fun w => (⟨stream, .here, w⟩, line ++ '\n' :: after)

/-- A redirection, if one starts here. -/
def redirect? (cs : List Char) : Option (Option (Redirect × List Char)) :=
  let (stream, rest) :=
    match cs with
    | c :: '<' :: r => if c.isDigit then (some (c.toNat - 48), '<' :: r) else (none, cs)
    | c :: '>' :: r => if c.isDigit then (some (c.toNat - 48), '>' :: r) else (none, cs)
    | cs => (none, cs)
  match rest with
  | '>' :: '>' :: r => some (target? (stream.getD 1) .append r)
  | '>' :: '&' :: r => some (target? (stream.getD 1) .copy r)
  | '>' :: '|' :: r => some (target? (stream.getD 1) .write r)
  | '>' :: r => some (target? (stream.getD 1) .write r)
  | '<' :: '<' :: r => some (here? (stream.getD 0) r)
  | '<' :: '&' :: r => some (target? (stream.getD 0) .copy r)
  | '<' :: r => some (target? (stream.getD 0) .read r)
  | _ => none

/-- Redirections behind a compound command. -/
def redirects? : Nat → List Char → Option (List Redirect × List Char)
  | 0, _ => none
  | fuel + 1, cs =>
    match redirect? (gaps cs) with
    | none => some ([], cs)
    | some none => none
    | some (some (r, rest)) => (redirects? fuel rest).map fun (rs, rest) => (r :: rs, rest)

/-! ## 4. Commands

By recursion on a count, with the grammar of the language from lists down to simple commands.  A
script that is not understood to its end is not begun. -/

/-- The name and the value of an assignment. -/
def assignment? (w : Word) : Option (String × Word) :=
  match w with
  | .text s false :: rest =>
    let cs := s.toList
    let name := cs.takeWhile isNameChar
    match cs.head?, cs.drop name.length with
    | some c, '=' :: value =>
      if isNameStart c then
        some (String.ofList name, textPart false value.reverse ++ rest)
      else none
    | _, _ => none
  | _ => none

/-- The words and redirections of a simple command, as far as they go. -/
def simple? : Nat → List (String × Word) → List Word → List Redirect → List Char →
    Option (Command × List Char)
  | 0, _, _, _, _ => none
  | fuel + 1, as_, ws, rs, cs =>
    let cs := gaps cs
    match redirect? cs with
    | some none => none
    | some (some (r, rest)) => simple? fuel as_ ws (rs ++ [r]) rest
    | none =>
      match word? cs with
      | none =>
        if as_ = [] && ws = [] && rs = [] then none else some (.simple as_ ws rs, cs)
      | some (w, rest) =>
        match assignment? w with
        | some a =>
          if ws = [] then simple? fuel (as_ ++ [a]) ws rs rest
          else simple? fuel as_ (ws ++ [w]) rs rest
        | none => simple? fuel as_ (ws ++ [w]) rs rest

/-- What follows a word of the language, if it stands here. -/
def keyword? (key : String) (cs : List Char) : Option (List Char) :=
  match Text.afterPrefix? key.toList cs with
  | some rest => if rest.head?.all endsWord then some rest else none
  | none => none

/-- The words that end a list of commands. -/
def closers : List String := ["then", "else", "elif", "fi", "do", "done", "esac", "\x7d"]

/-- A list of commands ends here. -/
def atClose (cs : List Char) : Bool :=
  match cs with
  | [] => true
  | ')' :: _ => true
  | ';' :: ';' :: _ => true
  | cs => closers.any fun k => (keyword? k cs).isSome

/-- What follows the separator of two commands. -/
def separator? (cs : List Char) : Option (List Char) :=
  match gaps cs with
  | ';' :: ';' :: _ => none
  | ';' :: r => some r
  | '\n' :: r => some r
  | _ => none

/-- What follows the mark behind a command that is not waited for. -/
def backgroundMark? (cs : List Char) : Option (List Char) :=
  match gaps cs with
  | '&' :: '&' :: _ => none
  | '&' :: r => some r
  | _ => none

/-- The patterns of a branch, up to the bracket. -/
def patterns? : Nat → List Char → Option (List Word × List Char)
  | 0, _ => none
  | fuel + 1, cs =>
    match word? (gaps cs) with
    | none => none
    | some (w, rest) =>
      match gaps rest with
      | '|' :: rest => (patterns? fuel rest).map fun (ws, r) => (w :: ws, r)
      | ')' :: rest => some ([w], rest)
      | _ => none

/-- Words up to the end of the line. -/
def wordList : Nat → List Char → List Word × List Char
  | 0, cs => ([], cs)
  | fuel + 1, cs =>
    match word? (gaps cs) with
    | none => ([], gaps cs)
    | some (w, rest) => let (ws, r) := wordList fuel rest; (w :: ws, r)

mutual
/-- Commands up to a closing word or the end of the text. -/
def list? : Nat → List Char → Option (List Command × List Char)
  | 0, _ => none
  | fuel + 1, cs =>
    let cs := lines cs
    if atClose cs then some ([], cs)
    else
      match chain? fuel cs with
      | none => none
      | some (c, rest) =>
        match backgroundMark? rest, separator? rest with
        | some rest, _ => (list? fuel rest).map fun (more, r) => (.background c :: more, r)
        | none, some rest => (list? fuel rest).map fun (more, r) => (c :: more, r)
        | none, none => if atClose (gaps rest) then some ([c], gaps rest) else none

/-- Pipelines joined by `&&` and `||`, which bind to the left. -/
def chain? : Nat → List Char → Option (Command × List Char)
  | 0, _ => none
  | fuel + 1, cs =>
    match pipeline? fuel cs with
    | none => none
    | some (c, rest) => joined? fuel c rest

def joined? : Nat → Command → List Char → Option (Command × List Char)
  | 0, _, _ => none
  | fuel + 1, c, cs =>
    match gaps cs with
    | '&' :: '&' :: r =>
      match pipeline? fuel (lines r) with
      | none => none
      | some (d, rest) => joined? fuel (.both c d) rest
    | '|' :: '|' :: r =>
      match pipeline? fuel (lines r) with
      | none => none
      | some (d, rest) => joined? fuel (.either c d) rest
    | _ => some (c, cs)

def pipeline? : Nat → List Char → Option (Command × List Char)
  | 0, _ => none
  | fuel + 1, cs =>
    match keyword? "!" (gaps cs) with
    | some rest => (pipeline? fuel rest).map fun (c, r) => (.negate c, r)
    | none =>
      match command? fuel (gaps cs) with
      | none => none
      | some (c, rest) =>
        match gaps rest with
        | '|' :: '|' :: _ => some (c, rest)
        | '|' :: r => (pipeline? fuel (lines r)).map fun (d, rest) => (.pipe c d, rest)
        | _ => some (c, rest)

/-- A compound command, a definition or a simple command. -/
def command? : Nat → List Char → Option (Command × List Char)
  | 0, _ => none
  | fuel + 1, cs =>
    match cs with
    | '(' :: r =>
      match list? fuel r with
      | some (body, ')' :: rest) => finish? (.subshell body) rest
      | _ => none
    | cs =>
      match keyword? "\x7b" cs, keyword? "if" cs, keyword? "while" cs, keyword? "until" cs,
        keyword? "for" cs, keyword? "case" cs with
      | some r, _, _, _, _, _ =>
        match list? fuel r with
        | some (body, rest) => (keyword? "\x7d" rest).bind (finish? (.group body))
        | none => none
      | none, some r, _, _, _, _ => cond? fuel r
      | none, none, some r, _, _, _ => loop? fuel true r
      | none, none, none, some r, _, _ => loop? fuel false r
      | none, none, none, none, some r, _ => each? fuel r
      | none, none, none, none, none, some r => choose? fuel r
      | none, none, none, none, none, none => definition? fuel cs

/-- Redirections that belong to a whole compound command. -/
def finish? (c : List Redirect → Command) (cs : List Char) : Option (Command × List Char) :=
  (redirects? (cs.length + 1) cs).map fun (rs, rest) => (c rs, rest)

/-- A condition behind its first word, and its alternatives. -/
def cond? : Nat → List Char → Option (Command × List Char)
  | 0, _ => none
  | fuel + 1, cs => do
    let (test, r) ← list? fuel cs
    let (body, r) ← list? fuel (← keyword? "then" r)
    match keyword? "elif" r, keyword? "else" r with
    | some r, _ =>
      let (other, rest) ← cond? fuel r
      return (.cond test body [other] [], rest)
    | none, some r =>
      let (other, r) ← list? fuel r
      finish? (.cond test body other) (← keyword? "fi" r)
    | none, none => finish? (.cond test body []) (← keyword? "fi" r)

def loop? : Nat → Bool → List Char → Option (Command × List Char)
  | 0, _, _ => none
  | fuel + 1, outcome, cs => do
    let (test, r) ← list? fuel cs
    let (body, r) ← list? fuel (← keyword? "do" r)
    finish? (.loop outcome test body) (← keyword? "done" r)

def each? : Nat → List Char → Option (Command × List Char)
  | 0, _ => none
  | fuel + 1, cs => do
    let cs := gaps cs
    let name := cs.takeWhile isNameChar
    let r := lines (cs.drop name.length)
    let (words, r) :=
      match keyword? "in" r with
      | some r => let (ws, rest) := wordList (r.length + 1) r; (some ws, rest)
      | none => (none, r)
    let r := lines ((separator? r).getD r)
    let (body, r) ← list? fuel (← keyword? "do" r)
    finish? (.each (String.ofList name) words body) (← keyword? "done" r)

def choose? : Nat → List Char → Option (Command × List Char)
  | 0, _ => none
  | fuel + 1, cs => do
    let (w, r) ← word? (gaps cs)
    let r ← keyword? "in" (lines r)
    let (branches, r) ← branches? fuel r
    finish? (.choose w branches) r

def branches? : Nat → List Char → Option (List (List Word × List Command) × List Char)
  | 0, _ => none
  | fuel + 1, cs =>
    let cs := lines cs
    match keyword? "esac" cs with
    | some rest => some ([], rest)
    | none => do
      let cs :=
        match cs with
        | '(' :: r => r
        | r => r
      let (ws, r) ← patterns? (cs.length + 1) cs
      let (body, r) ← list? fuel r
      let r :=
        match r with
        | ';' :: ';' :: rest => rest
        | rest => rest
      let (more, rest) ← branches? fuel r
      return ((ws, body) :: more, rest)

/-- The definition of a function, or a simple command. -/
def definition? : Nat → List Char → Option (Command × List Char)
  | 0, _ => none
  | fuel + 1, cs =>
    let name := cs.takeWhile isNameChar
    match gaps (cs.drop name.length) with
    | '(' :: r =>
      match gaps r with
      | ')' :: rest =>
        if name = [] then none
        else (command? fuel (lines rest)).map fun (c, r) => (.define (String.ofList name) c, r)
      | _ => none
    | _ => simple? (cs.length + 1) [] [] [] cs
end

/-- The commands of a script that is understood as a whole. -/
def script? (text : String) : Option (List Command) :=
  let cs := text.toList
  match list? (8 * cs.length + 16) cs with
  | some (commands, []) => some commands
  | _ => none

end Shell
end Foreman
