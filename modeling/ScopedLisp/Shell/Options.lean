import ScopedLisp.Scoping
import ScopedLisp.Text.Digit

/-!
The command line. What a word is can be seen from the word alone: a switch under one of its
spellings or a beginning of a long one, perhaps with a value after `=`; a plain word; or a stray
that looks like a switch and is none. The words are then taken in order, and a switch that has no
value of its own may take the plain word after it. The first fault is the one reported, and strays
and plain words left over are reported together at the end.
-/

namespace ScopedLisp

open Text

inductive Switch where
  | help | scoping | logLevel | noHistory | version
deriving DecidableEq

namespace Switch

def spellings : List (String × Switch) :=
  [("-h", .help), ("--help", .help), ("--scoping", .scoping), ("--log-level", .logLevel),
    ("--no-history", .noHistory), ("--version", .version)]

def label : Switch → String
  | .help => "-h/--help"
  | .scoping => "--scoping"
  | .logLevel => "--log-level"
  | .noHistory => "--no-history"
  | .version => "--version"

def takesValue : Switch → Bool
  | .scoping | .logLevel => true
  | .help | .noHistory | .version => false

def completions (start : String) : List (String × Switch) :=
  spellings.filter fun s => s.1.startsWith start

end Switch

inductive UsageFault where
  | ambiguous (word : String) (spellings : List String)
  | valueMissing (switch : Switch)
  | noScoping (value : String)
  | valueIgnored (switch : Switch) (value : String)
  | unrecognized (words : List String)
  | unknownLevel (name : String)
deriving DecidableEq

def UsageFault.message : UsageFault → String
  | .ambiguous word spellings =>
    "ambiguous option: " ++ word ++ " could match " ++ joinWith ", " spellings
  | .valueMissing switch => "argument " ++ switch.label ++ ": expected one argument"
  | .noScoping value =>
    "argument " ++ Switch.scoping.label ++ ": invalid choice: " ++ quoted value
      ++ " (choose from 'dynamic', 'lexical')"
  | .valueIgnored switch value =>
    "argument " ++ switch.label ++ ": ignored explicit argument " ++ quoted value
  | .unrecognized words => "unrecognized arguments: " ++ joinWith " " words
  | .unknownLevel name => "unknown log level " ++ quoted name

inductive Word where
  | plain (text : String)
  | stray (text : String)
  | switch (s : Switch) (value : Option String)
  | joined (more : List Char)

namespace Word

def splitValue (text : String) : String × Option String :=
  let name := text.toList.takeWhile (· ≠ '=')
  let rest := text.toList.dropWhile (· ≠ '=')
  (String.ofList name, rest.tail?.map String.ofList)

def isNegative (text : String) : Bool :=
  match text.toList with
  | '-' :: body =>
    let body := if body.getLast? = some '\n' then body.dropLast else body
    match body.dropWhile isDigit with
    | [] => body ≠ []
    | '.' :: fraction => fraction ≠ [] && fraction.all isDigit
    | _ => false
  | _ => false

def loose (text : String) : Word :=
  if isNegative text || text.contains ' ' then .plain text else .stray text

def ofSwitch (spelling : String) (s : Switch) : Option String → Word
  | some value => if spelling = "-h" then .joined value.toList else .switch s (some value)
  | none => .switch s none

def parse (text : String) : Except UsageFault Word :=
  if !text.startsWith "-" || text = "-" then .ok (.plain text)
  else
    let (name, value) := splitValue text
    match Switch.spellings.lookup name with
    | some s => .ok (ofSwitch name s value)
    | none =>
      if text.startsWith "--" then
        match Switch.completions name with
        | [] => .ok (loose text)
        | [(_, s)] => .ok (.switch s value)
        | several => .error (.ambiguous text (several.map (·.1)))
      else if text.startsWith "-h" then .ok (.joined (text.toList.drop 2))
      else .ok (loose text)

def parseAll : List String → Except UsageFault (List Word)
  | [] => .ok []
  | text :: rest =>
    if text = "--" then .ok (.stray text :: rest.map .plain)
    else do pure ((← parse text) :: (← parseAll rest))

end Word

inductive Given (α : Type) where
  | absent
  | bare
  | value (a : α)
deriving DecidableEq

structure Options where
  scoping : Given Scoping
  logLevel : Given String
  history : Bool
deriving DecidableEq

namespace Options

inductive Stop where
  | help
  | version
  | fault (fault : UsageFault)
deriving DecidableEq

def default : Options := ⟨.absent, .absent, true⟩

def namedScoping? (name : String) : Option Scoping :=
  [Scoping.dynamic, .lexical].find? (·.name == name)

def give (o : Options) : Switch → String → Except Stop Options
  | .scoping, "--" => .ok { o with scoping := .bare }
  | .scoping, value =>
    match namedScoping? value with
    | some mode => .ok { o with scoping := .value mode }
    | none => .error (.fault (.noScoping value))
  | .logLevel, "--" => .ok { o with logLevel := .bare }
  | .logLevel, value => .ok { o with logLevel := .value value }
  | switch, value => .error (.fault (.valueIgnored switch value))

def turnOn (o : Options) : Switch → Except Stop Options
  | .help => .error .help
  | .version => .error .version
  | .noHistory => .ok { o with history := false }
  | switch => .error (.fault (.valueMissing switch))

def joinedStop (more : List Char) : Stop :=
  match more, more.dropWhile (· = 'h') with
  | _ :: _, [] => .help
  | _, rest => .fault (.valueIgnored .help (String.ofList rest))

def take (o : Options) (left : List String) : List Word → Except Stop Options
  | [] => if left = [] then .ok o else .error (.fault (.unrecognized left))
  | .plain text :: words => take o (left ++ [text]) words
  | .stray text :: words => take o (left ++ [text]) words
  | .joined more :: _ => .error (joinedStop more)
  | .switch s (some value) :: words => do take (← o.give s value) left words
  | .switch s none :: words =>
    match s.takesValue, words with
    | true, .plain value :: words => do take (← o.give s value) left words
    | _, words => do take (← o.turnOn s) left words

def parse (texts : List String) : Except Stop Options :=
  match Word.parseAll texts with
  | .ok words => default.take [] words
  | .error fault => .error (.fault fault)

end Options

end ScopedLisp
