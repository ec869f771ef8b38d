import Triage.Number.Decimal

/-!
# The command line

`Invocation.ofArgs` reads the arguments of the program from left to right.  No option may be given
twice, and a request for help or for the version is answered as soon as it is met.
-/

namespace Triage

structure Options where
  config : Option String
  json : Bool
  verbose : Bool
  refreshSecs : Option Nat
  once : Bool
  deriving DecidableEq, Repr

namespace Options

def none : Options := ⟨.none, false, false, .none, false⟩

/-- The greatest number of seconds is one of 64 bits. -/
def seconds? (s : String) : Option Nat :=
  let ds := match s.toList with
    | '+' :: ds => ds
    | ds => ds
  let n := Decimal.valueOf ds
  if ds ≠ [] ∧ ds.all Char.isDigit ∧ n < Word.size then some n else .none

/-- The time between two requests of all jobs, at least a second. -/
def refreshPeriod (o : Options) : Nat := max (o.refreshSecs.getD 60) 1

end Options

/-- What the program is asked to do. -/
inductive Invocation where
  | run (o : Options)
  | help
  | version
  | refused
  deriving DecidableEq, Repr

namespace Invocation

inductive Switch where
  | json
  | verbose
  | once
  deriving DecidableEq, Repr

inductive Setting where
  | config
  | refreshSecs
  deriving DecidableEq, Repr

/-- What an option stands for. -/
inductive Meaning where
  | switch (s : Switch)
  | setting (s : Setting)
  | help
  | version

def longOption? : String → Option Meaning
  | "config" => some (.setting .config)
  | "json" => some (.switch .json)
  | "verbose" => some (.switch .verbose)
  | "refresh-secs" => some (.setting .refreshSecs)
  | "once" => some (.switch .once)
  | "help" => some .help
  | "version" => some .version
  | _ => none

def shortOption? : Char → Option Meaning
  | 'c' => some (.setting .config)
  | 'v' => some (.switch .verbose)
  | 'h' => some .help
  | 'V' => some .version
  | _ => none

def turnOn (o : Options) : Switch → Option Options
  | .json => if o.json then none else some { o with json := true }
  | .verbose => if o.verbose then none else some { o with verbose := true }
  | .once => if o.once then none else some { o with once := true }

def assign (o : Options) (s : Setting) (value : String) : Option Options :=
  match s with
  | .config => if o.config.isSome || value = "" then none else some { o with config := some value }
  | .refreshSecs =>
    if o.refreshSecs.isSome then none
    else (Options.seconds? value).map fun n => { o with refreshSecs := some n }

/-- How far an argument leads: the options so far, a setting that waits for its value in the next
argument, or the end. -/
inductive Step where
  | options (o : Options)
  | awaiting (o : Options) (s : Setting)
  | stop (i : Invocation)

def Step.ofOptions? : Option Options → Step
  | some o => .options o
  | none => .stop .refused

/-- The letters of an argument after its dash; a setting takes the rest of the argument as its
value. -/
def letters (o : Options) : List Char → Step
  | [] => .options o
  | c :: rest =>
    match shortOption? c with
    | some (.switch s) =>
      match turnOn o s with
      | some o => letters o rest
      | none => .stop .refused
    | some (.setting s) =>
      match rest with
      | [] => .awaiting o s
      | '=' :: value => .ofOptions? (assign o s (String.ofList value))
      | value => .ofOptions? (assign o s (String.ofList value))
    | some .help => .stop .help
    | some .version => .stop .version
    | none => .stop .refused

/-- An option with its long name, and a value after an equals sign or none. -/
def long (o : Options) (name : String) (value : Option String) : Step :=
  match longOption? name, value with
  | some (.switch s), none => .ofOptions? (turnOn o s)
  | some (.setting s), none => .awaiting o s
  | some (.setting s), some v => .ofOptions? (assign o s v)
  | some .help, none => .stop .help
  | some .version, none => .stop .version
  | _, _ => .stop .refused

def argument (o : Options) (arg : String) : Step :=
  match arg.toList with
  | '-' :: '-' :: text =>
    let name := text.takeWhile (· ≠ '=')
    match text.dropWhile (· ≠ '=') with
    | _ :: value => long o (String.ofList name) (some (String.ofList value))
    | [] => long o (String.ofList name) none
  | '-' :: c :: rest => letters o (c :: rest)
  | _ => .stop .refused

/-- An argument that can be the value of a setting; a lone dash can. -/
def isValue (arg : String) : Bool :=
  match arg.toList with
  | '-' :: _ :: _ => false
  | _ => true

/-- Reads the arguments; two dashes end the options, and nothing may follow them. -/
def read (o : Options) (awaiting : Option Setting) : List String → Invocation
  | [] => if awaiting.isSome then refused else run o
  | arg :: rest =>
    match awaiting with
    | some s =>
      match if isValue arg then assign o s arg else none with
      | some o => read o none rest
      | none => refused
    | none =>
      if arg = "--" then if rest.isEmpty then run o else refused
      else
        match argument o arg with
        | .options o => read o none rest
        | .awaiting o s => read o (some s) rest
        | .stop i => i

/-- The invocation with the given arguments; the environment can name a settings file too, which
counts when the arguments name none. -/
def ofArgs (environment : Option String) (args : List String) : Invocation :=
  match read .none none args with
  | run o =>
    match o.config, environment with
    | none, some path => if path = "" then refused else run { o with config := some path }
    | _, _ => run o
  | i => i

end Invocation

end Triage
