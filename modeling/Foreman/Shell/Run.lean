/-
# Carrying out scripts

Words are expanded, streams are redirected, and commands are carried out one after the other.
The first argument bounds the depth of the work; a script that exceeds it runs for ever.

Scripts are only carried out here, not proved correct.  What is proved of merges and attempts
holds for whatever a command does, and these scripts are one case of it.
-/
import Foreman.Git.Command
import Foreman.Machine.Program
import Foreman.Shell.Perl
import Foreman.Shell.Reader
import Foreman.Shell.Sum
import Foreman.Shell.Utility

namespace Foreman
namespace Shell

/-! ## 1. Parameters

What a command of the shell does that needs no other command: options, variables, signals and
the directory. -/

/-- The number of the shell itself. -/
def ownNumber : Nat := 4242

namespace Env

/-- The value of a parameter, if it has one. -/
def parameter? (e : Env) (name : String) : Option String :=
  match name with
  | "#" => some (toString e.args.length)
  | "?" => some (toString e.status)
  | "$" => some (toString ownNumber)
  | "!" => if e.started = 0 then none else some (toString (ownNumber + e.started))
  | "0" => some e.name
  | "-" => some ""
  | "@" | "*" =>
    if e.args = [] then none
    else some (Text.joinWith (String.ofList (e.separators.take 1)) e.args)
  | name =>
    match name.toNat? with
    | some n => e.args[n - 1]?
    | none => e.get? name

/-- A failure nobody looks at ends the shell, if that is wanted. -/
def strictly (e : Env) : Env :=
  if e.strict && !e.guarded && e.status ≠ 0 && e.flow = .on then { e with flow := .leave } else e

/-- The names that a pattern of a path stands for; the pattern itself if there are none. -/
def matching (e : Env) (f : Field) : List String :=
  let text := Field.text f
  if !Field.isPattern f then [text]
  else
    let (dir, last) :=
      match Text.splitLast? text '/' with
      | some (dir, last) => (dir ++ "/", last)
      | none => ("", text)
    let pattern := f.drop (f.length - last.length)
    let names := (e.files.list (e.path (if dir = "" then "." else dir))).filter fun n =>
      Field.covers pattern n && (Text.startsWith last "." || !Text.startsWith n ".")
    if names = [] || Field.isPattern (f.take dir.length) then [text]
    else (names.mergeSort fun a b => a ≤ b).map (dir ++ ·)

/-- The first line of the input as the values of variables; the last one takes what is left. -/
def readLine (e : Env) (names : List String) : Env :=
  let line := e.input.takeWhile (· ≠ 10)
  let rest := e.input.drop line.length
  let text := (Utf8.decodeLossy line).dropWhile fun c => c = ' ' || c = '\t'
  let e := { e with input := rest.drop 1 }
  let e := (fill e names text)
  e.done (if rest = [] then 1 else 0)
where
  fill (e : Env) : List String → List Char → Env
    | [], _ => e
    | [name], cs => e.set name (Text.trimEnd (String.ofList cs))
    | name :: more, cs =>
      let word := cs.takeWhile fun c => c ≠ ' ' && c ≠ '\t'
      let rest := (cs.drop word.length).dropWhile fun c => c = ' ' || c = '\t'
      fill (e.set name (String.ofList word)) more rest

/-- Switches the options of those letters on or off. -/
def switch (e : Env) (state : Bool) (letters : List Char) : Env :=
  letters.foldl
    (fun e c =>
      match c with
      | 'e' => { e with strict := state }
      | 'u' => { e with careful := state }
      | 'x' => { e with tracing := state }
      | _ => e)
    e

/-- Sets what `set` is asked for. -/
def setOptions (e : Env) : List String → Env
  | [] => e.done 0
  | "--" :: args => { e with args := args }.done 0
  | "-o" :: name :: rest => setOptions (named e true name) rest
  | "+o" :: name :: rest => setOptions (named e false name) rest
  | arg :: rest =>
    if Text.startsWith arg "-" then setOptions (e.switch true (arg.toList.drop 1)) rest
    else if Text.startsWith arg "+" then setOptions (e.switch false (arg.toList.drop 1)) rest
    else { e with args := arg :: rest }.done 0
where
  named (e : Env) (state : Bool) : String → Env
    | "errexit" => e.switch state ['e']
    | "nounset" => e.switch state ['u']
    | "xtrace" => e.switch state ['x']
    | _ => e

/-- Variables of the form `name=value` or names alone, which are exported if that is wanted. -/
def declare (e : Env) (exporting : Bool) (args : List String) : Env :=
  (args.filter fun a => !Text.startsWith a "-").foldl
    (fun e a =>
      let (name, e) :=
        match Text.splitOnce? a "=" with
        | some (name, value) => (name, e.set name value)
        | none => (a, e)
      if exporting then e.exportName name else e)
    (e.done 0)

/-- Variables that get back, when the function ends, what they hold now. -/
def localize (e : Env) (args : List String) : Env :=
  match e.locals with
  | none => { e.scold 2 "local: not in a function" with flow := .leave }
  | some saved =>
    let names := args.map fun a => (Text.splitOnce? a "=").elim a Prod.fst
    { e with locals := some (names.map (fun n => (n, e.get? n)) ++ saved) }.declare false args

/-- The variables get back what they held before, the last one saved first. -/
def restore (e : Env) (saved : List (String × Option String)) : Env :=
  saved.foldl
    (fun e v =>
      match v.2 with
      | some value => e.set v.1 value
      | none => e.unset v.1)
    e

/-- A number among the arguments of a command that takes one; without it the shell ends. -/
def withNumber (e : Env) (name : String) (dflt : Nat) (args : List String) (f : Nat → Env) : Env :=
  match args with
  | [] => f dflt
  | arg :: _ =>
    match arg.toNat? with
    | some n => f n
    | none => { e.scold 2 (name ++ ": Illegal number: " ++ arg) with flow := .leave }

/-- Signals for which an action is set. -/
def trap (e : Env) : List String → Env
  | action :: names =>
    names.foldl
      (fun e name =>
        match signal? name with
        | some n =>
          let key := toString n
          { e with traps := if action = "-" then e.traps.erase key else e.traps.insert key action }
        | none => e)
      (e.done 0)
  | [] => e.done 0

/-- Sends a signal to the shell itself or to a command that was not waited for. -/
def kill (e : Env) (args : List String) : Env :=
  let (signal, targets) :=
    match args with
    | "-s" :: name :: rest => (signal? name, rest)
    | arg :: rest =>
      match Text.stripStart? arg "-" with
      | some name => (signal? name, rest)
      | none => (some 15, args)
    | [] => (none, [])
  let targets := targets.filter (· ≠ "--")
  match signal, targets with
  | some signal, target :: _ =>
    if target = toString ownNumber || target = "0" || target = "-" ++ toString ownNumber then
      if signal = 0 then e.done 0 else (e.receive signal e.now).done 0
    else if e.jobs.any fun j => toString j.number = target then
      if signal = 0 then e.done 0
      else
        let stopped (j : Job) : Job :=
          if toString j.number = target then { j with alarm := some ⟨e.now, signal⟩ } else j
        { e with jobs := e.jobs.map stopped }.done 0
    else e.scold 1 "kill: No such process\n"
  | _, _ => e.scold 2 "kill: usage"

/-- Goes to another directory. -/
def cd (e : Env) (args : List String) : Env :=
  let target :=
    match args.head? with
    | some "-" => (e.get? "OLDPWD").getD e.dir
    | some target => target
    | none => (e.get? "HOME").getD "/"
  let full := Machine.absolute e.dir target
  if e.files.isDir (e.path target) then
    let e := if args = ["-"] then e.print (full ++ "\n") else e
    (({ e with dir := full }.set "OLDPWD" e.dir).set "PWD" full).done 0
  else e.scold 2 ("cd: can't cd to " ++ target)

/-- Time that a utility spends. -/
def sleep (e : Env) (args : List String) : Env :=
  let spans := args.map fun a =>
    match Text.stripEnd? a "m", Text.stripEnd? a "s" with
    | some n, _ => (Span.ofDecimal? n.toList).map fun s => s.nanos * 60
    | none, some n => (Span.ofDecimal? n.toList).map Span.nanos
    | none, none =>
      if a = "infinity" then some 1000000000000000000
      else (Span.ofDecimal? a.toList).map Span.nanos
  if args = [] || spans.any Option.isNone then
    e.fail 1 ("sleep: invalid time interval '" ++ args.head?.getD "" ++ "'")
  else (e.done 0).pass (((spans.filterMap id).foldl (fun n s => n + s) 0))

/-- The program of a name. -/
def program? (e : Env) (name : String) : Except FileError Program :=
  Program.find e.machine ((e.get? "PATH").getD Program.searchPath) e.dir name

/-- What a command name stands for, as `command -v` tells it. -/
def meaning? (e : Env) (name : String) : Option String :=
  if (e.functions.any fun f => f.1 = name) || name ∈ Utility.inner then some name
  else
    match e.program? name with
    | .ok (.known _) => some (if Text.contains name "/" then name else "/usr/bin/" ++ name)
    | .ok (.script path _) => some path
    | .error _ => none

/-- A command of git. -/
def git (e : Env) (args : List String) : Env :=
  let (exit, m) := Git.run e.machine (Machine.absolute e.dir "") args
  let e := { e with machine := m }.print exit.out
  (e.emit e.err (Utf8.encode exit.err.toList)).done exit.code

/-- A shell of its own for another program, which sees only the exported variables. -/
def fresh (e : Env) (name : String) (args : List String) : Env :=
  { e.inner with
    name := name, args := args, vars := e.passedOn.insert "PWD" (Machine.absolute e.dir ""),
    functions := [], strict := false,
    careful := false, tracing := false, locals := none, guarded := false }

/-- The shell after another program has run with its streams; a signal that ended it is kept. -/
def ran (e sub : Env) : Env :=
  match sub.flow with
  | .killed signal => { e.after { sub with flow := .leave } with flow := .killed signal }
  | _ => e.after sub

/-- What is said about a program that a signal ended. -/
def farewell : Nat → Option String
  | 1 => some "Hangup"
  | 9 => some "Killed"
  | 15 => some "Terminated"
  | _ => none

/-- The shell `e` has run a program and goes on as `r`: a signal that the program sent to itself
only leaves a status. -/
def resume (e r : Env) : Env :=
  match r.flow with
  | .killed signal =>
    let early : Bool :=
      match e.alarm with
      | some a => r.now < a.time
      | none => true
    if early then
      let r := { r with flow := e.flow, status := 128 + signal }
      (farewell signal).elim r r.complain
    else e.after r
  | _ => r

end Env

/-! ## 2. Words and commands

By mutual recursion, as a word may hold a script whose output it stands for.  All of it is one
descent on the first argument. -/

/-- The argument of a parameter's rule as a word. -/
def ruleWord (argument : String) : Word :=
  let cs := argument.toList
  match quotedParts (cs.length + 2) [] (cs ++ ['"']) with
  | some (w, _) => w.map fun
    | .text s _ => .text s false
    | p => p
  | none => [.text argument false]

/-- The arguments of a shell: options, the script of `-c`, and what follows. -/
def shellArgs : List String → Bool × Option String × List String
  | "-c" :: script :: rest => (false, some script, rest)
  | arg :: rest =>
    if Text.startsWith arg "-" && arg ≠ "-" then
      let (strict, script, rest) :=
        if arg.toList.contains 'c' then
          match rest with
          | script :: rest => (false, some script, rest)
          | [] => (false, none, [])
        else shellArgs rest
      (strict || arg.toList.contains 'e', script, rest)
    else (false, none, arg :: rest)
  | [] => (false, none, [])

mutual
/-- Expands a word into the fields under construction. -/
def expand : Nat → Env → Fields → Word → Env × Fields
  | 0, e, f, _ => (e.hang, f)
  | _, e, f, [] => (e, f)
  | fuel + 1, e, f, p :: ps =>
    match p with
    | .text s q => expand fuel e (f.add (Field.ofText s q) q) ps
    | .parameter "@" "" "" true => expand fuel e (f.addEach e.separators true e.args) ps
    | .parameter "@" "" "" false => expand fuel e (f.addEach e.separators false e.args) ps
    | .parameter "*" "" "" false => expand fuel e (f.addEach e.separators false e.args) ps
    | .parameter name rule argument q =>
      let (e, v) := parameter fuel e name rule argument
      let f := if q then f.add (Field.ofText v true) true else f.split e.separators v.toList
      expand fuel e f ps
    | .output text q =>
      let (e, v) := output fuel e text
      let f := if q then f.add (Field.ofText v true) true else f.split e.separators v.toList
      expand fuel e f ps
    | .sum text q =>
      let (e, t) := single fuel e (ruleWord text)
      match Sum.value e.get? t with
      | .ok (n, changes) =>
        let e := changes.reverse.foldl (fun e v => e.set v.1 v.2) e
        expand fuel e (f.add (Field.ofText (toString n) q) q) ps
      | .error fault => ({ e.scold 2 (fault.message t) with flow := .leave }, f)

/-- The value of a parameter under its rule. -/
def parameter : Nat → Env → String → String → String → Env × String
  | 0, e, _, _, _ => (e.hang, "")
  | fuel + 1, e, name, rule, argument =>
    let value := e.parameter? name
    let filled := value.any (· ≠ "")
    let text := value.getD ""
    let other (e : Env) : Env × String := single fuel e (ruleWord argument)
    let defaults := [":-", "-", ":+", "+", ":=", "=", ":?", "?"].contains rule
    if e.careful && value.isNone && !defaults && name ≠ "@" && name ≠ "*" then
      ({ e.scold 2 (name ++ ": parameter not set") with flow := .leave }, "")
    else
    match rule with
    | "" => (e, text)
    | "length" => (e, toString text.length)
    | ":-" => if filled then (e, text) else other e
    | "-" => if value.isSome then (e, text) else other e
    | ":+" => if filled then other e else (e, "")
    | "+" => if value.isSome then other e else (e, "")
    | ":=" => if filled then (e, text) else let (e, v) := other e; (e.set name v, v)
    | "=" => if value.isSome then (e, text) else let (e, v) := other e; (e.set name v, v)
    | ":?" | "?" =>
      if filled || (rule = "?" && value.isSome) then (e, text)
      else
        let (e, v) := other e
        let plain := if rule = "?" then "parameter not set" else "parameter not set or null"
        ({ e.scold 2 (name ++ ": " ++ (if v = "" then plain else v)) with flow := .leave }, "")
    | rule =>
      let (e, f) := expand fuel e {} (ruleWord argument)
      let pattern := (f.all.head?).getD []
      match rule with
      | "#" => (e, Field.dropStart pattern false text)
      | "##" => (e, Field.dropStart pattern true text)
      | "%" => (e, Field.dropEnd pattern false text)
      | "%%" => (e, Field.dropEnd pattern true text)
      | _ => ({ e.scold 2 "Bad substitution" with flow := .leave }, "")

/-- The output of a script, without the line ends behind it. -/
def output : Nat → Env → String → Env × String
  | 0, e, _ => (e.hang, "")
  | fuel + 1, e, text =>
    let n := e.buffers.length
    let sub := { e.inner with out := .buffer n, buffers := e.buffers ++ [[]] }
    let sub := finish fuel (script fuel sub text)
    let out := (Utf8.decodeLossy (sub.buffer n)).reverse.dropWhile (· = '\n')
    let after := e.after { sub with buffers := sub.buffers.take n }
    ({ after with status := e.status, answer := some sub.status }, String.ofList out.reverse)

/-- A word as one text. -/
def single : Nat → Env → Word → Env × String
  | 0, e, _ => (e.hang, "")
  | fuel + 1, e, w =>
    let (e, f) := expand fuel e {} (w.map fun
      | .parameter "@" r a _ => .parameter "*" r a true
      | .parameter n r a _ => .parameter n r a true
      | .output t _ => .output t true
      | .sum t _ => .sum t true
      | .text s _ => .text s true)
    (e, Text.joinWith " " (f.all.map Field.text))

/-- All fields of words, with the names that patterns stand for. -/
def words : Nat → Env → List Word → Env × List String
  | 0, e, _ => (e.hang, [])
  | _, e, [] => (e, [])
  | fuel + 1, e, w :: ws =>
    let (e, f) := expand fuel e {} w
    let found := f.all.flatMap e.matching
    if e.flow = .on then let (e, more) := words fuel e ws; (e, found ++ more) else (e, found)

/-- Opens the streams of redirections; false if one cannot be opened. -/
def redirect : Nat → Env → List Redirect → Env × Bool
  | 0, e, _ => (e.hang, false)
  | _, e, [] => (e, true)
  | fuel + 1, e, r :: rs =>
    let (e, target) := single fuel e r.target
    let lead (e : Env) (s : Sink) : Env :=
      match r.stream with
      | 1 => { e with out := s }
      | 2 => { e with err := s }
      | _ => e
    let create (keep : Bool) : Env × Bool :=
      if target = "/dev/null" then redirect fuel (lead e .nowhere) rs
      else if target = "/dev/stderr" then redirect fuel (lead e e.err) rs
      else if target = "/dev/stdout" then redirect fuel (lead e e.out) rs
      else
        let full := e.path target
        -- the file is there from now on, even if nothing is ever written to it
        let old := if keep then (e.files.read full).toOption.getD [] else []
        match e.files.write full old with
        | .ok t => redirect fuel (lead (e.withFiles t) (.file (Machine.absolute e.dir target))) rs
        | .error .isDirectory =>
          (e.scold 2 ("cannot create " ++ target ++ ": Is a directory"), false)
        | .error _ => (e.scold 2 ("cannot create " ++ target ++ ": Directory nonexistent"), false)
    match r.direction with
    | .write => create false
    | .append => create true
    | .copy =>
      match target with
      | "1" => redirect fuel (lead e e.out) rs
      | "2" => redirect fuel (lead e e.err) rs
      | "-" => redirect fuel (lead e .nowhere) rs
      | _ => (e.scold 2 (target ++ ": Bad file descriptor"), false)
    | .here => redirect fuel { e with input := Utf8.encode target.toList } rs
    | .read =>
      if target = "/dev/null" then redirect fuel { e with input := [] } rs
      else
        match e.files.read (e.path target) with
        | .ok bytes => redirect fuel { e with input := bytes } rs
        | .error _ => (e.scold 2 ("cannot open " ++ target ++ ": No such file"), false)

/-- Carries something out with its streams redirected. -/
def redirected : Nat → Env → List Redirect → (Env → Env) → Env
  | 0, e, _, _ => e.hang
  | fuel + 1, e, rs, body =>
    let (e', ok) := redirect fuel e rs
    let r := if ok && e'.flow = .on then body e' else e'
    let reads := rs.any fun r =>
      match r.direction with
      | .read | .here => true
      | _ => false
    { r with out := e.out, err := e.err, input := if reads then e.input else r.input }

/-- Commands one after the other. -/
def list : Nat → Env → List Command → Env
  | 0, e, _ => e.hang
  | _, e, [] => e
  | fuel + 1, e, c :: cs =>
    let e := run fuel e c
    let e :=
      match e.flow with
      | .woken action =>
        let r := script fuel { e with flow := .on } action
        if r.flow = .on then r.done e.status else r
      | _ => e
    if e.flow = .on then list fuel e cs else e

/-- One command. -/
def run : Nat → Env → Command → Env
  | 0, e, _ => e.hang
  | fuel + 1, e, c =>
    match c with
    | .simple as_ ws rs => (simple fuel e as_ ws rs).strictly
    | .group body rs => redirected fuel e rs fun e => list fuel e body
    | .subshell body rs =>
      (redirected fuel e rs fun e => e.after (finish fuel (list fuel e.inner body))).strictly
    | .cond test whenTrue whenFalse rs =>
      redirected fuel e rs fun e =>
        -- a test may fail without ending a strict shell
        let t := list fuel { e with guarded := true } test
        let t := { t with guarded := e.guarded }
        if t.flow ≠ .on then t
        else if t.status = 0 then list fuel t whenTrue
        else list fuel (t.done 0) whenFalse
    | .loop outcome test body rs =>
      redirected fuel e rs fun e =>
        { loop fuel { e with loops := e.loops + 1 } outcome test body 0 with loops := e.loops }
    | .each name ws body rs =>
      redirected fuel e rs fun e =>
        match ws with
        | some ws =>
          let (e, values) := words fuel e ws
          if e.flow = .on then
            { each fuel { e.done 0 with loops := e.loops + 1 } name values body with
              loops := e.loops }
          else e
        | none =>
          { each fuel { e.done 0 with loops := e.loops + 1 } name e.args body with
            loops := e.loops }
    | .choose w branches rs =>
      redirected fuel e rs fun e =>
        let (e, text) := single fuel e w
        if e.flow = .on then choose fuel e text branches else e
    | .define name body =>
      { e with functions := (name, body) :: e.functions.filter fun f => f.1 ≠ name }.done 0
    | .both a b =>
      let r := run fuel { e with guarded := true } a
      let r := { r with guarded := e.guarded }
      if r.flow = .on && r.status = 0 then run fuel r b else r
    | .either a b =>
      let r := run fuel { e with guarded := true } a
      let r := { r with guarded := e.guarded }
      if r.flow = .on && r.status ≠ 0 then run fuel r b else r
    | .negate a =>
      let r := run fuel { e with guarded := true } a
      { r with guarded := e.guarded, status := if r.status = 0 then 1 else 0 }
    | .pipe a b =>
      -- the first command writes to a buffer, and the second one starts when it is over
      let n := e.buffers.length
      let first := { e.inner with out := .buffer n, buffers := e.buffers ++ [[]] }
      let first := finish fuel (run fuel first a)
      let between := first.buffer n
      let e := e.after { first with buffers := first.buffers.take n }
      if e.flow ≠ .on then e
      else
        let second := finish fuel (run fuel { e.inner with input := between } b)
        (e.after { second with input := e.input }).strictly
    | .background a =>
      let job : Job := { number := ownNumber + e.started + 1, start := e.now, body := a }
      { e with jobs := e.jobs ++ [job], started := e.started + 1 }.done 0

/-- Rounds of a loop, as long as the test has the outcome. -/
def loop : Nat → Env → Bool → List Command → List Command → Nat → Env
  | 0, e, _, _, _, _ => e.hang
  | fuel + 1, e, outcome, test, body, last =>
    let t := list fuel { e with guarded := true } test
    let t := { t with guarded := e.guarded }
    if t.flow ≠ .on then t
    else if (t.status = 0) ≠ (outcome = true) then t.done last
    else
      let b := list fuel t body
      match b.flow with
      | .on => loop fuel b outcome test body b.status
      | .again 0 | .again 1 => loop fuel { b with flow := .on } outcome test body b.status
      | .again (n + 1) => { b with flow := .again n }
      | .stop 0 | .stop 1 => { b with flow := .on }
      | .stop (n + 1) => { b with flow := .stop n }
      | _ => b

/-- A round for each value. -/
def each : Nat → Env → String → List String → List Command → Env
  | 0, e, _, _, _ => e.hang
  | _, e, _, [], _ => e
  | fuel + 1, e, name, v :: vs, body =>
    let b := list fuel (e.set name v) body
    match b.flow with
    | .on => each fuel b name vs body
    | .again 0 | .again 1 => each fuel { b with flow := .on } name vs body
    | .again (n + 1) => { b with flow := .again n }
    | .stop 0 | .stop 1 => { b with flow := .on }
    | .stop (n + 1) => { b with flow := .stop n }
    | _ => b

/-- The first branch that has a pattern for the text. -/
def choose : Nat → Env → String → List (List Word × List Command) → Env
  | 0, e, _, _ => e.hang
  | _, e, _, [] => e.done 0
  | fuel + 1, e, text, (patterns, body) :: more =>
    let (e, found) := patterns.foldl
      (fun (acc : Env × Bool) w =>
        if acc.2 then acc
        else
          let (e, f) := expand fuel acc.1 {} w
          (e, Field.covers ((f.all.head?).getD []) text))
      (e, false)
    if e.flow ≠ .on then e
    else if found then list fuel (e.done 0) body
    else choose fuel e text more

/-- A simple command: assignments, a name, arguments and redirections. -/
def simple : Nat → Env → List (String × Word) → List Word → List Redirect → Env
  | 0, e, _, _, _ => e.hang
  | fuel + 1, e, as_, ws, rs =>
    let (e, args) := words fuel { e with answer := none } ws
    let (e, values) := as_.foldl
      (fun (acc : Env × List (String × String)) a =>
        let (e, v) := single fuel acc.1 a.2
        -- assignments in front of a command are its own, and set aside until it starts
        (if args = [] then e.set a.1 v else e, acc.2 ++ [(a.1, v)]))
      (e, [])
    let told := values.map (fun v => v.1 ++ "=" ++ v.2) ++ args
    let e := if e.tracing && told ≠ [] then e.complain ("+ " ++ Text.joinWith " " told) else e
    let locked := values.find? fun v => v.1 ∈ e.fixed
    if e.flow ≠ .on then e
    else if let some v := locked then { e.scold 2 (v.1 ++ ": is read only") with flow := .leave }
    else
      match args with
      | [] => redirected fuel (e.done (e.answer.getD 0)) rs id
      | ["exec"] =>
        let (e, ok) := redirect fuel e rs
        if ok then e.done 0 else e
      | name :: rest =>
        -- what the variables were before, for the time after the command
        let old := values.map fun v => (v.1, e.get? v.1, decide (v.1 ∈ e.exported))
        let set := values.foldl (fun e v => (e.set v.1 v.2).exportName v.1) e
        let r := redirected fuel set rs fun e => invoke fuel e name rest
        old.foldl
          (fun e o =>
            let e' :=
              match o.2.1 with
              | some v => e.set o.1 v
              | none => e.unset o.1
            if o.2.2 then e' else { e' with exported := e'.exported.filter (· ≠ o.1) })
          r

/-- A command by its name. -/
def invoke : Nat → Env → String → List String → Env
  | 0, e, _, _ => e.hang
  | fuel + 1, e, name, args =>
    -- a function hides a command of the shell, and that a program
    match e.functions.find? fun f => f.1 = name with
    | some (_, body) =>
      let r := run fuel { e with args := args, loops := 0, locals := some [] } body
      { r.restore (r.locals.getD []) with
        args := e.args, loops := e.loops, locals := e.locals,
        flow := if r.flow = .back then .on else r.flow }
    | none =>
      match name with
      | "exit" => e.withNumber name e.status args fun n => { e.done (n % 256) with flow := .leave }
      | "return" => e.withNumber name e.status args fun n => { e.done (n % 256) with flow := .back }
      | "break" =>
        if e.loops = 0 then e.done 0
        else e.withNumber name 1 args fun n => { e.done 0 with flow := .stop (min n e.loops) }
      | "continue" =>
        if e.loops = 0 then e.done 0
        else e.withNumber name 1 args fun n => { e.done 0 with flow := .again (min n e.loops) }
      | "cd" => e.cd args
      | "export" => e.declare true args
      | "local" => e.localize args
      | "readonly" =>
        let names := args.map fun a => (Text.splitOnce? a "=").elim a Prod.fst
        { e.declare false args with fixed := e.fixed ++ names }
      | "unset" => (args.foldl Env.unset e).done 0
      | "set" => e.setOptions args
      | "shift" =>
        e.withNumber name 1 args fun n =>
          if n ≤ e.args.length then { e with args := e.args.drop n }.done 0
          else { e.scold 2 "shift: can't shift that many" with flow := .leave }
      | "eval" => script fuel (e.done 0) (Text.joinWith " " args)
      | "." | "source" =>
        match args with
        | file :: _ =>
          match e.files.readText (e.path file) with
          | .ok text =>
            let r := script fuel (e.done 0) text
            { r with flow := if r.flow = .back then .on else r.flow }
          | .error _ =>
            { e.scold 2 (".: cannot open " ++ file ++ ": No such file") with flow := .leave }
        | [] => e.done 0
      | "exec" =>
        match args with
        | name :: rest =>
          let r := external fuel e "exec: " name rest
          { r with flow := if r.flow = .on then .leave else r.flow }
        | [] => e.done 0
      | "trap" => e.trap args
      | "wait" =>
        let r := wait fuel (e.done 0) args false
        match r.flow, args.getLast? with
        | .on, some number => r.done ((r.ended.lookup number).getD 127)
        | .on, none => r.done 0
        | _, _ => r
      | "kill" => e.kill args
      | "read" => e.readLine (args.filter fun a => !Text.startsWith a "-")
      | "command" =>
        match args with
        | "-v" :: name :: _ =>
          match e.meaning? name with
          | some text => (e.print (text ++ "\n")).done 0
          | none => e.done 127
        | name :: rest => invoke fuel { e with functions := [] } name rest
        | [] => e.done 0
      | name =>
        match Utility.find? name with
        | some f => f e args
        | none => e.resume (external fuel e "" name args)

/-- A program that is no part of the shell; `about` begins what is said if there is none. -/
def external : Nat → Env → String → String → List String → Env
  | 0, e, _, _, _ => e.hang
  | fuel + 1, e, about, name, args =>
    match e.program? name with
    | .error .denied => e.scold 126 (about ++ name ++ ": Permission denied")
    | .error _ => e.scold 127 (about ++ name ++ ": not found")
    | .ok p => program fuel e p args

/-- Runs a program in a shell of its own. -/
def program : Nat → Env → Program → List String → Env
  | 0, e, _, _ => e.hang
  | fuel + 1, e, p, args =>
    match p with
    | .script path (interpreter :: more) =>
      match Program.known? interpreter with
      | some q => program fuel e q (more ++ path :: args)
      | none => e.scold 127 (path ++ ": not found")
    | .script path [] => program fuel e (.known "sh") (path :: args)
    | .known "git" => e.git args
    | .known "sleep" => e.sleep args
    | .known "perl" => e.ran (Perl.run (e.fresh "perl" []) args)
    | .known "env" =>
      -- assignments first, then the program that sees them
      let args := args.filter (· ≠ "-i")
      let given := args.takeWhile fun a => Text.contains a "="
      let inner := e.declare true given
      match args.drop given.length with
      | [] => Utility.printenv inner []
      | name :: rest => e.ran (external fuel inner "" name rest)
    | .known name =>
      if name ∈ Program.shells then
        let (strict, text, rest) := shellArgs args
        let start (name : String) (args : List String) (text : String) : Env :=
          let sub := { e.fresh name args with strict := strict }
          e.ran (finish fuel (script fuel (sub.done 0) text))
        match text, rest with
        | some text, [] => start name [] text
        | some text, name :: args => start name args text
        | none, [] => start name [] (String.ofList (Utf8.decodeLossy e.input))
        | none, path :: args =>
          match e.files.read (e.path path) with
          | .ok bytes => start path args (String.ofList (Utf8.decodeLossy bytes))
          | .error _ => e.fail 2 (name ++ ": 0: cannot open " ++ path ++ ": No such file")
      else
        match Utility.find? name with
        | some f => f e args
        | none => e.done 127

/-- The commands of a text. -/
def script : Nat → Env → String → Env
  | 0, e, _ => e.hang
  | fuel + 1, e, text =>
    match script? text with
    | some commands => list fuel e commands
    | none => { e.scold 2 "Syntax error" with flow := .leave }

/-- Carries out the commands that were not waited for, or those of the given numbers; if `cut`
holds they end when the shell does. -/
def wait : Nat → Env → List String → Bool → Env
  | 0, e, _, _ => e.hang
  | fuel + 1, e, numbers, cut =>
    match e.jobs.find? fun j => numbers = [] || numbers.contains (toString j.number) with
    | none => e
    | some job =>
      let alarm := if cut then some (job.alarm.getD ⟨e.now, 9⟩) else job.alarm.or e.alarm
      let sub := { e.inner with now := job.start, flow := .on, input := [], alarm := alarm }
      let r := run fuel sub job.body
      let status :=
        match r.flow with
        | .killed signal => 128 + signal
        | _ => r.status
      let e := { e with
        jobs := e.jobs.filter fun j => j.number ≠ job.number,
        ended := (toString job.number, status) :: e.ended }
      let e' : Env :=
        if cut then { e with machine := r.machine, buffers := r.buffers }
        else
          let own := { r with input := e.input, alarm := e.alarm }
          match r.flow, job.alarm with
          | .killed _, none => e.after { own with now := max e.now r.now }
          | _, _ => (e.after { own with now := e.now, flow := .on }).pass (r.now - e.now)
      if e'.flow = e.flow then wait fuel e' numbers cut else e'

/-- The shell ends: its last action is taken, and what it started in the background is over. -/
def finish : Nat → Env → Env
  | 0, e => e.hang
  | fuel + 1, e =>
    let e :=
      match e.traps.get? "0", e.flow with
      | some action, .killed _ => if action = "" then e else e
      | some action, _ =>
        let r := script fuel { e with flow := .on, traps := e.traps.erase "0" } action
        if r.flow = Flow.leave then r else { r with status := e.status, flow := Flow.leave }
      | none, _ => e
    let ending : Flow :=
      match e.flow with
      | .killed signal => .killed signal
      | _ => Flow.leave
    let e := { e with flow := ending }
    wait fuel e [] e.alarm.isSome
end

/-- How deep the work of a script may go. -/
def depth : Nat := 20000

end Shell
end Foreman
