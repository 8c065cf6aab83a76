/-
# One-line Perl

The few statements with which a test program prints, waits and leaves its process group.
-/
import Foreman.Shell.Environment
import Foreman.Shell.Printf
import Foreman.Time.Span

namespace Foreman
namespace Shell
namespace Perl

/-- The text between the first and the last mark of a kind. -/
def between (mark : Char) (s : String) : Option String :=
  let cs := s.toList.dropWhile (· ≠ mark)
  match cs with
  | _ :: rest => (Text.splitLast? (String.ofList rest) mark).map Prod.fst
  | [] => none

/-- The argument behind a word, without brackets. -/
def argument (word statement : String) : String :=
  String.ofList ((statement.toList.drop word.length).filter fun c => c ≠ '(' && c ≠ ')' && c ≠ ' ')

def statement (e : Env) (s : String) : Env :=
  let s := String.ofList (s.toList.dropWhile fun c => c = ' ' || c = '\n')
  if e.flow ≠ .on then e
  else if Text.startsWith s "print STDERR" || Text.startsWith s "warn" then
    e.emit e.err (Printf.escapes false (s.length + 1) ((between '"' s).getD "").toList).1
  else if Text.startsWith s "print" then
    match between '"' s, between '\'' s with
    | some text, _ => e.emit e.out (Printf.escapes false (text.length + 1) text.toList).1
    | none, some text => e.print text
    | none, none => e
  else if Text.startsWith s "setpgrp" || Text.startsWith s "setsid" then { e with alarm := none }
  else if Text.startsWith s "select" then
    match (Text.splitLast? s ',').bind fun p => Span.ofDecimal? (argument "" p.2).toList with
    | some span => e.pass span.nanos
    | none => e
  else if Text.startsWith s "sleep" then
    match Span.ofDecimal? (argument "sleep" s).toList with
    | some span => e.pass span.nanos
    | none => e
  else if Text.startsWith s "exit" then
    { e with status := ((argument "exit" s).toNat?.getD 0) % 256, flow := .leave }
  else e

/-- The command `perl`. -/
def run (e : Env) : List String → Env
  | "-e" :: script :: _ => (Text.split script ';').foldl statement (e.done 0)
  | _ => e.done 2

end Perl
end Shell
end Foreman
