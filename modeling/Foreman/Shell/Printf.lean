/-
# Formatted output

What `echo` and `printf` make of their arguments.
-/
import Foreman.Text.Integer
import Foreman.Text.Search
import Foreman.Text.Utf8

namespace Foreman
namespace Shell
namespace Printf

/-- The byte of up to three octal digits, and the rest. -/
def octal (cs : List Char) : UInt8 × List Char :=
  let digits := (cs.take 3).takeWhile fun c => '0' ≤ c && c ≤ '7'
  (UInt8.ofNat (digits.foldl (fun n c => 8 * n + (c.toNat - 48)) 0), cs.drop digits.length)

/-- The bytes that a letter behind a backslash stands for. -/
def letter? : Char → Option (List UInt8)
  | 'a' => some [7]
  | 'b' => some [8]
  | 'f' => some [12]
  | 'n' => some [10]
  | 'r' => some [13]
  | 't' => some [9]
  | 'v' => some [11]
  | '\\' => some [92]
  | _ => none

/-- The bytes of a text with its escapes, and whether all output ends there.  `zeros` tells that
octal digits stand behind a zero. -/
def escapes (zeros : Bool) : Nat → List Char → List UInt8 × Bool
  | 0, _ => ([], false)
  | fuel + 1, cs =>
    let go (bytes : List UInt8) (rest : List Char) : List UInt8 × Bool :=
      let (more, stop) := escapes zeros fuel rest
      (bytes ++ more, stop)
    match cs with
    | [] => ([], false)
    | '\\' :: 'c' :: rest => if zeros then ([], true) else go (Utf8.encode ['\\', 'c']) rest
    | '\\' :: c :: rest =>
      match letter? c with
      | some bytes => go bytes rest
      | none =>
        if zeros && c = '0' then let (b, r) := octal rest; go [b] r
        else if !zeros && '0' ≤ c && c ≤ '7' then let (b, r) := octal (c :: rest); go [b] r
        else go (Utf8.encode ['\\', c]) rest
    | c :: rest => go (Utf8.encodeChar c) rest

/-- The output of `echo`. -/
def echo (args : List String) : List UInt8 :=
  let (quiet, words) :=
    match args with
    | "-n" :: rest => (true, rest)
    | words => (false, words)
  let cs := (Text.joinWith " " words).toList
  let (bytes, stop) := escapes true (cs.length + 1) cs
  if quiet || stop then bytes else bytes ++ [10]

/-- Blanks, or zeros, in front of a text or behind it, up to a width. -/
def pad (flags : List Char) (width : Nat) (bytes : List UInt8) : List UInt8 :=
  let missing := width - bytes.length
  if flags.contains '-' then bytes ++ List.replicate missing 32
  else List.replicate missing (if flags.contains '0' then 48 else 32) ++ bytes

/-- An argument under a conversion. -/
def convert (flags : List Char) (width : Nat) (precision : Option Nat) (kind : Char)
    (arg : String) : List UInt8 :=
  let number := (Text.signed? Text.half64 arg.toList).getD 0
  match kind with
  | 's' =>
    let bytes := Utf8.encode arg.toList
    pad flags width (match precision with
      | some n => bytes.take n
      | none => bytes)
  | 'b' => pad flags width (escapes true (arg.length + 1) arg.toList).1
  | 'c' => pad flags width ((Utf8.encode arg.toList).take 1)
  | 'x' => pad flags width (Utf8.encode (Nat.toDigits 16 number.toNat))
  | 'o' => pad flags width (Utf8.encode (Nat.toDigits 8 number.toNat))
  | _ => pad flags width (Utf8.encode (toString number).toList)

/-- One pass over a format, and the arguments that are left. -/
def once : Nat → List Char → List String → List UInt8 × List String
  | 0, _, args => ([], args)
  | fuel + 1, cs, args =>
    let go (bytes : List UInt8) (rest : List Char) (args : List String) :
        List UInt8 × List String :=
      let (more, left) := once fuel rest args
      (bytes ++ more, left)
    match cs with
    | [] => ([], args)
    | '%' :: '%' :: rest => go [37] rest args
    | '%' :: rest =>
      let flags := rest.takeWhile fun c => "-+ 0#".toList.contains c
      let rest := rest.drop flags.length
      let width := rest.takeWhile Char.isDigit
      let rest := rest.drop width.length
      let (precision, rest) :=
        match rest with
        | '.' :: r =>
          let digits := r.takeWhile Char.isDigit
          (some ((Text.digitsValue? 0 digits).getD 0), r.drop digits.length)
        | r => (none, r)
      match rest with
      | kind :: rest =>
        go (convert flags ((Text.digitsValue? 0 width).getD 0) precision kind (args.head?.getD ""))
          rest (args.drop 1)
      | [] => ([], args)
    | '\\' :: c :: rest =>
      match letter? c with
      | some bytes => go bytes rest args
      | none =>
        if '0' ≤ c && c ≤ '7' then let (b, r) := octal (c :: rest); go [b] r args
        else go (Utf8.encode ['\\', c]) rest args
    | c :: rest => go (Utf8.encodeChar c) rest args

/-- The output of a format; it is used again until no argument is left. -/
def format : Nat → String → List String → List UInt8
  | 0, _, _ => []
  | fuel + 1, text, args =>
    let (bytes, left) := once (text.length + 1) text.toList args
    if left = [] || left.length = args.length then bytes else bytes ++ format fuel text left

def printf (text : String) (args : List String) : List UInt8 := format (args.length + 1) text args

/-- The kinds of the conversions of a format. -/
def kinds : Nat → List Char → List Char
  | 0, _ => []
  | fuel + 1, cs =>
    match cs with
    | [] => []
    | '%' :: '%' :: rest => kinds fuel rest
    | '%' :: rest =>
      match rest.dropWhile fun c => "-+ 0#.123456789".toList.contains c with
      | kind :: rest => kind :: kinds fuel rest
      | [] => []
    | _ :: rest => kinds fuel rest

/-- The arguments that a format takes for numbers although they are none. -/
def wrongNumbers (text : String) (args : List String) : List String :=
  let kinds := kinds (text.length + 1) text.toList
  args.zipIdx.filterMap fun (arg, n) =>
    match kinds[n % max kinds.length 1]? with
    | some kind =>
      if "diouxX".toList.contains kind && arg ≠ "" &&
          (Text.signed? Text.half64 arg.toList).isNone then
        some arg
      else none
    | none => none

end Printf
end Shell
end Foreman
