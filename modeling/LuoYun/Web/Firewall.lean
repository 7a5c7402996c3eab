import LuoYun.Lib.Optparse
import LuoYun.Web.Python
import Mathlib.Data.List.DropRight

/-!
# The rules of the firewall

`lyweb/tool/firewall.py` adds and deletes rules that send a port of the outside to an instance. What
it knows of the chain `PREROUTING` is what `iptables -S` lists, read by an option parser for the
options of its own rules. Others may have put rules with other options there; the parser gives up
within such a line, without a word. A rule is deleted by its number, which is its place among the
lines that were read.

`iptables` is a parameter: whether it refuses a command, and how it lists a rule that it was given.
-/

namespace LuoYun.Web.Firewall

open Optparse

/-! ## `iptables` -/

/-- A command, by what follows `iptables -t nat`. -/
inductive Cmd where
  /-- `-S PREROUTING`. -/
  | list
  /-- `-D PREROUTING` and a number. -/
  | delete (num : Nat)
  /-- `-I PREROUTING` and the words of a rule. -/
  | insert (spec : List Bytes)
  deriving DecidableEq, Repr

/-- What the model leaves to `iptables`. -/
structure Iptables where
  /-- The command is refused before anything is done. -/
  refuses : Cmd → Bool
  /-- What becomes of packets that no rule takes. -/
  policy : Bytes
  /-- The rule of these words, as it will be listed, if the words make a rule. -/
  save : List Bytes → Option Bytes

/-- The line of a rule. -/
def ruleLine (rule : Bytes) : Bytes := cstr "-A PREROUTING " ++ rule ++ [10]

/-- The lines of a chain: the policy, and a line for each rule. -/
def listing (ipt : Iptables) (chain : List Bytes) : List Bytes :=
  (cstr "-P PREROUTING " ++ ipt.policy ++ [10]) :: chain.map ruleLine

/-- `run_cmd`: the lines of the output and the chain afterwards, or an exit code that is not zero.
-/
def runCmd (ipt : Iptables) (cmd : Cmd) (chain : List Bytes) : Option (List Bytes × List Bytes) :=
  if ipt.refuses cmd then none
  else
    match cmd with
    | .list => some (listing ipt chain, chain)
    | .delete num => if 1 ≤ num ∧ num ≤ chain.length then
        some ([], chain.eraseIdx (num - 1))
        else none
    | .insert spec => (ipt.save spec).map fun rule => ([], rule :: chain)

/-! ## The parser -/

/-- What `parse_args` returns. -/
structure Values where
  A : Option Bytes := none
  d : Option Bytes := none
  p : Option Bytes := none
  m : Option Bytes := none
  j : Option Bytes := none
  dport : Option Int := none
  destination : Option Bytes := none
  deriving DecidableEq, Repr

/-- `Prerouting.get_parser`. -/
def getParser : List (Opt Values) :=
  [{ short := some 65, store := fun value s => some { s with A := some value } },
    { short := some 100, store := fun value s => some { s with d := some value } },
    { short := some 112, store := fun value s => some { s with p := some value } },
    { short := some 109, store := fun value s => some { s with m := some value } },
    { short := some 106, store := fun value s => some { s with j := some value } },
    { long := some (cstr "--dport")
      store := fun value s => (parseInt value).map fun n => { s with dport := some n } },
    { long := some (cstr "--to-destination")
      store := fun value s => some { s with destination := some value } }]

/-- `line.strip('\n')`. -/
def stripNewline (line : Bytes) : Bytes := (line.dropWhile (· = 10)).rdropWhile (· = 10)

/-- What the loop of `get_rules` makes of a line. -/
def parseLine (line : Bytes) : Except Raised Values :=
  parseArgs getParser (split (stripNewline line)) {}

/-- `if args.A`. -/
def Values.isRule (args : Values) : Bool := args.A.any (· ≠ [])

/-- The loop of `get_rules`. -/
def readRules : List Bytes → Except Raised (List Values)
  | [] => .ok []
  | line :: lines => do
    let args ← parseLine line
    let rules ← readRules lines
    return if args.isRule then args :: rules else rules

/-- `Prerouting.get_rules`. -/
def getRules (ipt : Iptables) (chain : List Bytes) : Except Raised (List Values) :=
  match runCmd ipt .list chain with
  | some (stdout, _) => readRules stdout
  | none => .ok []

/-! ## The methods -/

/-- The chain and the object that edits it. -/
structure Prerouting where
  chain : List Bytes
  rules : List Values
  deriving DecidableEq, Repr

/-- What a method leaves behind, and what it raises. -/
structure Done where
  state : Prerouting
  raised : Option Raised := none
  deriving DecidableEq, Repr

/-- `'%s:%s' % (ip, port)`. -/
def destination (ip port : Bytes) : Bytes := ip ++ 58 :: port

/-- `self.rules = self.get_rules()`. -/
def refresh (ipt : Iptables) (s : Prerouting) : Done :=
  match getRules ipt s.chain with
  | .ok rules => { state := { s with rules := rules } }
  | .error e => { state := s, raised := some e }

/-- A command that changes the chain. The rules are read again if it succeeds. -/
def edit (ipt : Iptables) (cmd : Cmd) (s : Prerouting) : Done :=
  match runCmd ipt cmd s.chain with
  | some (_, chain) => refresh ipt { s with chain := chain }
  | none => { state := s }

/-- `Prerouting.delete`. -/
def delete (ipt : Iptables) (index : Nat) (s : Prerouting) : Done := edit ipt (.delete index) s

/-- `Prerouting.delete_by_destination`. -/
def deleteByDestination (ipt : Iptables) (ip port : Bytes) (s : Prerouting) : Done :=
  match s.rules.findIdx? fun r => r.destination = some (destination ip port) with
  | some index => delete ipt (index + 1) s
  | none => { state := s }

/-- `Prerouting.exists`. -/
def Prerouting.existsRule (s : Prerouting) (ip port : Bytes) : Bool :=
  s.rules.any fun r => r.destination = some (destination ip port)

/-- The words of the command of `add`, from `-d` on. -/
def addSpec (externalIp externalPort innerIp innerPort type : Bytes) : List Bytes :=
  split (cstr "-d " ++ externalIp ++ cstr " -p " ++ type ++ cstr " -m " ++ type ++
    cstr " --dport " ++ externalPort ++
    cstr " -j DNAT --to-destination " ++ innerIp ++ 58 :: innerPort)

/-- `Prerouting.add`. -/
def add (ipt : Iptables) (externalIp externalPort innerIp innerPort type : Bytes)
    (s : Prerouting) : Done :=
  if s.existsRule innerIp innerPort then { state := s }
  else edit ipt (.insert (addSpec externalIp externalPort innerIp innerPort type)) s

/-! ## Runs -/

/-- A call of a method. -/
inductive Call where
  | deleteByDestination (ip port : Bytes)
  | add (externalIp externalPort innerIp innerPort type : Bytes)

/-- The object is gone when an exception leaves a method. -/
def next (ipt : Iptables) (s : Prerouting) (call : Call) : Option (Except Raised Prerouting) :=
  let done := match call with
    | .deleteByDestination ip port => deleteByDestination ipt ip port s
    | .add externalIp externalPort innerIp innerPort type =>
      add ipt externalIp externalPort innerIp innerPort type s
  match done.raised with
  | none => some (.ok done.state)
  | some e => some (.error e)

/-- `Prerouting()`, whatever the chain is. -/
def Constructed (ipt : Iptables) (s : Prerouting) : Prop := getRules ipt s.chain = .ok s.rules

end LuoYun.Web.Firewall
