import LuoYun.Lib.Machine
import LuoYun.Lib.Outcome
import LuoYun.Web.Firewall

/-!
# The right rule is deleted

The list of rules holds one entry for every rule of the chain, whatever its options are, because the
parser has stored `-A` before it comes to anything that it does not know (`parseLine_isRule`). So a
place in the list is a place in the chain (`getRules_eq`), and this stays so in every run of the
object.
-/

namespace LuoYun.Web.Firewall

open Optparse Machine

variable {ipt : Iptables}

/-- What the parser reads in the line of a rule. -/
def parsed (rule : Bytes) : Values :=
  match parseLine (ruleLine rule) with
  | .ok args => args
  | .error _ => {}

/-- The parser finds the destination in the line of the rule. -/
def sendsTo (ip port rule : Bytes) : Bool := (parsed rule).destination = some (destination ip port)

/-- The line of a rule that `add` made: the address of the outside may be left out. -/
def ListedAs (rule : Bytes) (destination : Bytes) : Prop :=
  ∃ externalIp type port, (externalIp = [] ∨ ∃ ip, externalIp = [cstr "-d", ip]) ∧
    split rule = externalIp ++ [cstr "-p", type, cstr "-m", type, cstr "--dport",
      decNat port, cstr "-j", cstr "DNAT", cstr "--to-destination", destination]

/-- **Deleting**: the first rule with the destination goes, and nothing else. -/
def DeletesFirst (ipt : Iptables) (s : Prerouting) : Prop :=
  ∀ ip port, (deleteByDestination ipt ip port s).raised = none ∧
    (deleteByDestination ipt ip port s).state.chain = s.chain.eraseP (sendsTo ip port)

/-- **Adding**: a rule comes to the head unless one with the destination is there already. -/
def AddsAtHead (ipt : Iptables) (s : Prerouting) : Prop :=
  ∀ externalIp externalPort innerIp innerPort type,
    (s.chain.any (sendsTo innerIp innerPort) = true →
      add ipt externalIp externalPort innerIp innerPort type s = { state := s }) ∧
    ∀ rule, ipt.save (addSpec externalIp externalPort innerIp innerPort type) = some rule →
      s.chain.any (sendsTo innerIp innerPort) = false →
        (add ipt externalIp externalPort innerIp innerPort type s).state.chain = rule :: s.chain

/-- **Deleting what was added** brings the chain back. -/
def DeleteUndoesAdd (ipt : Iptables) (s : Prerouting) : Prop :=
  ∀ externalIp externalPort innerIp innerPort type rule,
    ipt.save (addSpec externalIp externalPort innerIp innerPort type) = some rule →
    ListedAs rule (destination innerIp innerPort) →
    s.chain.any (sendsTo innerIp innerPort) = false →
      (add ipt externalIp externalPort innerIp innerPort type s).raised = none ∧
        (deleteByDestination ipt innerIp innerPort
          (add ipt externalIp externalPort innerIp innerPort type s).state).raised = none ∧
        (deleteByDestination ipt innerIp innerPort
          (add ipt externalIp externalPort innerIp innerPort type s).state).state.chain = s.chain

/-! ## The words of a line -/

theorem split_newline (text : Bytes) : split (10 :: text) = split text := split_append rfl [] text

theorem split_dropWhile (line : Bytes) : split (line.dropWhile (· = 10)) = split line := by
  induction line with
  | nil => rfl
  | cons b line ih =>
    rw [List.dropWhile_cons]
    split
    · rename_i hb
      rw [of_decide_eq_true hb, split_newline, ih]
    · rfl

theorem split_stripNewline (line : Bytes) : split (stripNewline line) = split line := by
  rw [stripNewline, ← split_dropWhile line]
  generalize line.dropWhile (· = 10) = text
  induction text using List.reverseRecOn with
  | nil => rfl
  | append_singleton text b ih =>
    rw [List.rdropWhile_concat]
    split
    · rename_i hb
      rw [of_decide_eq_true hb, split_append rfl, ih]
      exact (List.append_nil _).symm
    · rfl

/-- The words of a line that begins with the name of the chain. -/
theorem split_line {command : Bytes} {words : List Bytes}
    (h : split command = words) (rest : Bytes) :
    split (stripNewline (command ++ [32] ++ rest ++ [10])) = words ++ split rest := by
  rw [split_stripNewline, split_append (b := 10) rfl, List.append_assoc, List.singleton_append,
    split_append rfl, h]
  exact List.append_nil _

theorem split_ruleLine (rule : Bytes) :
    split (stripNewline (ruleLine rule)) = cstr "-A" :: cstr "PREROUTING" :: split rule := by
  have htext : cstr "-A PREROUTING " = cstr "-A PREROUTING" ++ [32] := rfl
  have hwords : split (cstr "-A PREROUTING") = [cstr "-A", cstr "PREROUTING"] := rfl
  rw [ruleLine, htext]
  exact split_line hwords rule

/-! ## What the parser reads in a line -/

/-- Its own options come with their values in the next argument. -/
theorem readArg_A : ∃ opt, readArg getParser (cstr "-A") = .next opt ∧
    ∀ value s, opt.store value s = some { s with A := some value } := ⟨_, rfl, fun _ _ => rfl⟩

/-- `-A` is never stored without a text. -/
theorem store_isRule {opt : Opt Values} (hopt : opt ∈ getParser) {value : Bytes} {s t : Values}
    (hvalue : opt.long = none → value ≠ []) (hst : opt.store value s = some t)
    (hs : s.isRule = true) :
    t.isRule = true := by
  simp only [getParser, List.mem_cons, List.not_mem_nil, or_false] at hopt
  rcases hopt with rfl | rfl | rfl | rfl | rfl | rfl | rfl
  · obtain rfl := Option.some.inj hst
    exact decide_eq_true (hvalue rfl)
  -- the port is converted
  on_goal 5 =>
    obtain ⟨n, -, rfl⟩ := Option.map_eq_some_iff.mp hst
    exact hs
  all_goals
    obtain rfl := Option.some.inj hst
    exact hs

theorem parseLine_eq (rule : Bytes) :
    parseLine (ruleLine rule) = parseArgs getParser (split rule)
      { A := some (cstr "PREROUTING") } := by
  obtain ⟨opt, hr, hst⟩ := readArg_A
  rw [parseLine, split_ruleLine]
  exact parseArgs_store hr (hst _ _) _

/-- **Every line of a rule counts**, wherever the parser gives up in it. -/
theorem parseLine_isRule {rule : Bytes} {args : Values} (h : parseLine (ruleLine rule) = .ok args) :
    args.isRule = true := by
  rw [parseLine_eq] at h
  refine parseArgs_inv (P := fun s => s.isRule = true) ?_
    (fun w hw => ne_nil_of_mem_split hw) h (rfl)
  exact fun opt hopt value s t hvalue hst hs => store_isRule hopt hvalue hst hs

theorem parsed_of_ok {rule : Bytes} {args : Values} (h : parseLine (ruleLine rule) = .ok args) :
    parsed rule = args := by
  rw [parsed, h]

/-- The line of the policy is read and dropped. -/
theorem parseLine_policy (policy : Bytes) :
    parseLine (cstr "-P PREROUTING " ++ policy ++ [10]) = .ok {} := by
  have htext : cstr "-P PREROUTING " = cstr "-P PREROUTING" ++ [32] := rfl
  have hwords : split (cstr "-P PREROUTING") = [cstr "-P", cstr "PREROUTING"] := rfl
  rw [parseLine, htext, split_line hwords]
  -- the parser has no option `-P`
  exact parseArgs_stop rfl _ _

theorem readRules_map {chain : List Bytes} {rules : List Values} :
    readRules (chain.map ruleLine) = .ok rules ↔
      (∀ rule ∈ chain, ∃ args, parseLine (ruleLine rule) = .ok args) ∧
        rules = chain.map parsed := by
  induction chain generalizing rules with
  | nil =>
    constructor
    · intro h
      exact ⟨nofun, (Except.ok.inj h).symm⟩
    · rintro ⟨-, rfl⟩
      rfl
  | cons rule chain ih =>
    rw [List.map_cons, readRules]
    constructor
    · intro h
      obtain ⟨args, hargs, h⟩ := exists_ok_of_bind h
      obtain ⟨rest, hrest, h⟩ := exists_ok_of_bind h
      -- no rule is filtered out
      rw [parseLine_isRule hargs, if_pos rfl] at h
      obtain ⟨hall, rfl⟩ := ih.mp hrest
      refine ⟨?_, ?_⟩
      · intro r hr
        rcases List.mem_cons.mp hr with rfl | hr
        · exact ⟨args, hargs⟩
        · exact hall r hr
      · rw [List.map_cons, parsed_of_ok hargs]
        exact (Except.ok.inj h).symm
    · rintro ⟨hall, rfl⟩
      obtain ⟨args, hargs⟩ := hall rule List.mem_cons_self
      have hrest := ih.mpr ⟨fun r hr => hall r (List.mem_cons_of_mem _ hr), rfl⟩
      rw [hargs, hrest, List.map_cons, parsed_of_ok hargs]
      show Except.ok (if args.isRule = true then _ else _) = _
      rw [parseLine_isRule hargs, if_pos rfl]

/-! ## The object and the chain -/

/-- The lines of all rules are read without an exception. -/
def Readable (chain : List Bytes) : Prop :=
  ∀ rule ∈ chain, ∃ args, parseLine (ruleLine rule) = .ok args

theorem getRules_eq (hok : ∀ cmd, ipt.refuses cmd = false) (chain : List Bytes) :
    getRules ipt chain = readRules (chain.map ruleLine) := by
  rw [getRules, runCmd, hok, if_neg Bool.false_ne_true]
  dsimp only [listing]
  rw [readRules, parseLine_policy]
  show (readRules (chain.map ruleLine) >>= fun rules => Except.ok rules) = _
  cases readRules (chain.map ruleLine) with
  | ok rules => rfl
  | error e => rfl

/-- **The list of rules is the chain**, rule for rule. -/
theorem constructed_iff (hok : ∀ cmd, ipt.refuses cmd = false) {s : Prerouting} :
    Constructed ipt s ↔ Readable s.chain ∧ s.rules = s.chain.map parsed := by
  rw [Constructed, getRules_eq hok]
  exact readRules_map

/-- No exception is raised on rules whose options come with their values. -/
theorem exists_constructed (hok : ∀ cmd, ipt.refuses cmd = false) {chain : List Bytes}
    (h : ∀ rule ∈ chain, Follows getParser (split rule)) :
    ∃ rules, Constructed ipt ⟨chain, rules⟩ := by
  refine ⟨chain.map parsed, (constructed_iff hok).mpr ⟨fun rule hr => ?_, rfl⟩⟩
  rw [parseLine_eq]
  exact parseArgs_ok (h rule hr) _

theorem refresh_of_readable (hok : ∀ cmd, ipt.refuses cmd = false) {s : Prerouting}
    (h : Readable s.chain) :
    refresh ipt s = { state := { s with rules := s.chain.map parsed } } := by
  have hrules : getRules ipt s.chain = .ok (s.chain.map parsed) :=
    (constructed_iff hok (s := ⟨s.chain, s.chain.map parsed⟩)).mpr ⟨h, rfl⟩
  rw [refresh, hrules]

/-- The rules have been read again, unless that raised an exception. -/
theorem refresh_cases (ipt : Iptables) (s : Prerouting) :
    (refresh ipt s).state.chain = s.chain ∧
      ((refresh ipt s).raised = none → Constructed ipt (refresh ipt s).state) := by
  unfold refresh
  cases h : getRules ipt s.chain with
  | ok rules => exact ⟨rfl, fun _ => h⟩
  | error e => exact ⟨rfl, nofun⟩

theorem edit_constructed {cmd : Cmd} {s : Prerouting} (hs : Constructed ipt s)
    (h : (edit ipt cmd s).raised = none) : Constructed ipt (edit ipt cmd s).state := by
  unfold edit at h ⊢
  cases hrun : runCmd ipt cmd s.chain with
  | none => exact hs
  | some r =>
    rw [hrun] at h
    exact (refresh_cases ipt _).2 h

theorem deleteByDestination_constructed {ip port : Bytes} {s : Prerouting} (hs : Constructed ipt s)
    (h : (deleteByDestination ipt ip port s).raised = none) :
    Constructed ipt (deleteByDestination ipt ip port s).state := by
  unfold deleteByDestination at h ⊢
  split
  · rename_i index hi
    rw [hi] at h
    exact edit_constructed hs h
  · exact hs

theorem add_constructed {externalIp externalPort innerIp innerPort type : Bytes} {s : Prerouting}
    (hs : Constructed ipt s)
    (h : (add ipt externalIp externalPort innerIp innerPort type s).raised = none) :
    Constructed ipt (add ipt externalIp externalPort innerIp innerPort type s).state := by
  unfold add at h ⊢
  split
  · exact hs
  · rename_i hex
    rw [if_neg hex] at h
    exact edit_constructed hs h

/-- **In every run of the object** the list of rules is up to date. -/
theorem reach_constructed {s : Prerouting} (h : Reach (next ipt) Always (Constructed ipt) s) :
    Constructed ipt s := by
  refine h.inv (fun _ hs => hs) ?_
  intro s call t hs _ hn
  unfold next at hn
  dsimp only at hn
  split at hn
  · rename_i hraised
    obtain rfl := Except.ok.inj (Option.some.inj hn)
    cases call with
    | deleteByDestination ip port => exact deleteByDestination_constructed hs hraised
    | add externalIp externalPort innerIp innerPort type => exact add_constructed hs hraised
  · cases hn

/-! ## Deleting and adding -/

theorem findIdx?_rules {s : Prerouting} (hrules : s.rules = s.chain.map parsed) (ip port : Bytes) :
    (s.rules.findIdx? fun r => r.destination = some (destination ip port)) =
      s.chain.findIdx? (sendsTo ip port) := by
  rw [hrules, List.findIdx?_map]
  rfl

theorem existsRule_eq {s : Prerouting} (hrules : s.rules = s.chain.map parsed) (ip port : Bytes) :
    s.existsRule ip port = s.chain.any (sendsTo ip port) := by
  rw [Prerouting.existsRule, hrules, List.any_map]
  rfl

/-- Rule numbers begin with one. -/
theorem runCmd_delete (hok : ∀ cmd, ipt.refuses cmd = false) {chain : List Bytes} {index : Nat}
    (h : index < chain.length) : runCmd ipt (.delete (index + 1)) chain =
      some ([], chain.eraseIdx index) := by
  rw [runCmd, hok, if_neg Bool.false_ne_true]
  exact if_pos ⟨Nat.succ_pos _, h⟩

theorem deletesFirst (hok : ∀ cmd, ipt.refuses cmd = false) {s : Prerouting}
    (hs : Constructed ipt s) :
    DeletesFirst ipt s := by
  intro ip port
  obtain ⟨hread, hrules⟩ := (constructed_iff hok).mp hs
  rw [List.eraseP_eq_eraseIdx, deleteByDestination, findIdx?_rules hrules]
  cases hi : s.chain.findIdx? (sendsTo ip port) with
  | none => exact ⟨rfl, rfl⟩
  | some index =>
    have hlt : index < s.chain.length := (List.findIdx?_eq_some_iff_getElem.mp hi).1
    -- the rules that stay are read as before
    have hrest : Readable (s.chain.eraseIdx index) :=
      fun rule hr => hread rule (List.mem_of_mem_eraseIdx hr)
    dsimp only
    rw [delete, edit, runCmd_delete hok hlt]
    dsimp only
    rw [refresh_of_readable hok hrest]
    exact ⟨rfl, rfl⟩

theorem add_of_absent (hok : ∀ cmd, ipt.refuses cmd = false) {s : Prerouting}
    (hs : Constructed ipt s) {externalIp externalPort innerIp innerPort type rule : Bytes}
    (hsave : ipt.save (addSpec externalIp externalPort innerIp innerPort type) = some rule)
    (habsent : s.chain.any (sendsTo innerIp innerPort) = false) :
    add ipt externalIp externalPort innerIp innerPort type s =
      refresh ipt { s with chain := rule :: s.chain } := by
  rw [add, existsRule_eq ((constructed_iff hok).mp hs).2, habsent, if_neg Bool.false_ne_true, edit,
    runCmd, hok, if_neg Bool.false_ne_true, hsave]
  rfl

theorem addsAtHead (hok : ∀ cmd, ipt.refuses cmd = false) {s : Prerouting}
    (hs : Constructed ipt s) :
    AddsAtHead ipt s := by
  intro externalIp externalPort innerIp innerPort type
  constructor
  · intro hthere
    rw [add, existsRule_eq ((constructed_iff hok).mp hs).2, hthere, if_pos rfl]
  · intro rule hsave habsent
    rw [add_of_absent hok hs hsave habsent]
    exact (refresh_cases ipt _).1

/-! ## The line of a rule that was added -/

theorem digitValue_of_isDigit {b : UInt8} (h : isDigit b = true) : digitValue b < 10 := by
  simp only [isDigit, Bool.and_eq_true, decide_eq_true_eq] at h
  rw [digitValue, if_pos h]
  have := UInt8.le_iff_toNat_le.mp h.2
  have : (57 : UInt8).toNat = 57 := rfl
  omega

/-- The first digit is a zero in the text of zero only. -/
theorem decNat_zero {n : Nat} {rest : Bytes} (h : decNat n = 48 :: rest) : rest = [] := by
  induction n using Nat.strongRecOn generalizing rest with
  | ind n ih =>
    rw [decNat_eq] at h
    split at h
    · exact (List.cons.inj h).2.symm
    · rename_i hn
      obtain ⟨b, ds, hds⟩ := List.exists_cons_of_ne_nil (decNat_ne_nil (n / 10))
      rw [hds, List.cons_append] at h
      obtain ⟨rfl, -⟩ := List.cons.inj h
      -- the number without its last digit is not zero
      have hlt : n / 10 < n := by omega
      obtain rfl := ih (n / 10) hlt hds
      have hval := digitsVal_decNat (n / 10)
      rw [hds] at hval
      have h0 : digitsVal 0 [48] = 0 := rfl
      omega

theorem natOf_decNat (n : Nat) : (natOf 10 (decNat n)).isSome := by
  have hall : (decNat n).all (fun b => digitValue b < 10) = true :=
    List.all_eq_true.mpr fun b hb => decide_eq_true (digitValue_of_isDigit (decNat_isDigit n b hb))
  rw [natOf, if_pos ⟨decNat_ne_nil n, hall⟩]
  rfl

/-- A port that is written in decimal can be converted. -/
theorem parseInt_decNat (n : Nat) : (parseInt (decNat n)).isSome := by
  have hdec := natOf_decNat n
  have hdigits := decNat_isDigit n
  have hzero := @decNat_zero n
  generalize decNat n = ds at *
  unfold parseInt
  split
  · rename_i rest
    obtain rfl := hzero rfl
    rfl
  · rename_i hfirst
    unfold intOf
    dsimp only
    split
    · exact absurd (hdigits 45 List.mem_cons_self) (by decide)
    · exact absurd (hdigits 43 List.mem_cons_self) (by decide)
    · rw [Option.isSome_map]
      split
      · exact absurd rfl (hfirst _)
      · exact hdec

/-- The value of an option is in the next argument. -/
theorem readArg_own : readArg getParser (cstr "-d") = .next getParser[1] ∧
    readArg getParser (cstr "-p") = .next getParser[2] ∧
      readArg getParser (cstr "-m") = .next getParser[3] ∧
    readArg getParser (cstr "-j") = .next getParser[4] ∧
      readArg getParser (cstr "--dport") = .next getParser[5] ∧
    readArg getParser (cstr "--to-destination") = .next getParser[6] :=
  ⟨rfl, rfl, rfl, rfl, rfl, rfl⟩

theorem parseArgs_listed (type dest : Bytes) (port : Nat) (s : Values) :
    ∃ t, parseArgs getParser [cstr "-p", type, cstr "-m", type, cstr "--dport", decNat port,
      cstr "-j", cstr "DNAT",
      cstr "--to-destination", dest] s = .ok t ∧ t.destination = some dest := by
  obtain ⟨-, hp, hm, hj, hdport, hdest⟩ := readArg_own
  obtain ⟨n, hn⟩ := Option.isSome_iff_exists.mp (parseInt_decNat port)
  have hport : ∀ s : Values, getParser[5].store (decNat port) s =
      some { s with dport := some n } := by
    intro s
    show (parseInt (decNat port)).map _ = _
    rw [hn]
    rfl
  rw [parseArgs_store hp rfl, parseArgs_store hm rfl, parseArgs_store hdport (hport _),
    parseArgs_store hj rfl, parseArgs_store hdest rfl]
  exact ⟨_, rfl, rfl⟩

/-- The line of a rule that was added is read, with its destination. -/
theorem parsed_of_listed {rule dest : Bytes} (h : ListedAs rule dest) :
    (∃ args, parseLine (ruleLine rule) = .ok args) ∧ (parsed rule).destination = some dest := by
  suffices hparse : ∃ args, parseLine (ruleLine rule) = .ok args ∧ args.destination = some dest by
    obtain ⟨args, hargs, hdest⟩ := hparse
    exact ⟨⟨args, hargs⟩, by rw [parsed_of_ok hargs, hdest]⟩
  obtain ⟨externalIp, type, port, hexternal, hwords⟩ := h
  rw [parseLine_eq, hwords]
  rcases hexternal with rfl | ⟨ip, rfl⟩
  · exact parseArgs_listed type dest port _
  · rw [List.cons_append, List.singleton_append, parseArgs_store readArg_own.1 rfl]
    exact parseArgs_listed type dest port _

theorem deleteUndoesAdd (hok : ∀ cmd, ipt.refuses cmd = false) {s : Prerouting}
    (hs : Constructed ipt s) :
    DeleteUndoesAdd ipt s := by
  intro externalIp externalPort innerIp innerPort type rule hsave hlisted habsent
  obtain ⟨hargs, hdest⟩ := parsed_of_listed hlisted
  have hread : Readable (rule :: s.chain) := by
    intro r hr
    rcases List.mem_cons.mp hr with rfl | hr
    · exact hargs
    · exact ((constructed_iff hok).mp hs).1 r hr
  have hadd := (add_of_absent hok hs hsave habsent).trans (refresh_of_readable hok hread)
  have hraised : (add ipt externalIp externalPort innerIp innerPort type s).raised =
      none := by rw [hadd]
  obtain ⟨hdelete, hchain⟩ := deletesFirst hok (add_constructed hs hraised) innerIp innerPort
  refine ⟨hraised, hdelete, hchain.trans ?_⟩
  -- the new rule is the first one with the destination
  rw [hadd]
  exact List.eraseP_cons_of_pos (decide_eq_true hdest)

/-- **The right rule is edited**: the object can be made on any chain whose rules have options with
their values, and in every run of it a rule is deleted and added as it should be. -/
theorem edits_right (ipt : Iptables) (hok : ∀ cmd, ipt.refuses cmd = false) :
    (∀ chain, (∀ rule ∈ chain, Follows getParser (split rule)) → ∃ rules,
      Constructed ipt ⟨chain, rules⟩) ∧
      ∀ s, Reach (next ipt) Always (Constructed ipt) s →
        DeletesFirst ipt s ∧ AddsAtHead ipt s ∧ DeleteUndoesAdd ipt s := by
  refine ⟨fun chain h => exists_constructed hok h, fun s h => ?_⟩
  have hs := reach_constructed h
  exact ⟨deletesFirst hok hs, addsAtHead hok hs, deleteUndoesAdd hok hs⟩

/-- It lists a rule in the words that it was given. -/
def plainIptables : Iptables where
  refuses _ := false
  policy := cstr "ACCEPT"
  save spec := some ([32].intercalate spec)

/-- A rule with an option that the parser does not have. -/
def foreignRule : Bytes := cstr "-i eth1 -j DNAT --to-destination 10.0.0.1:22"

/-- A rule that `add` could have made. -/
def ownRule : Bytes := cstr "-p tcp -m tcp --dport 80 -j DNAT --to-destination 10.0.0.1:22"

theorem follows_foreignRule : Follows getParser (split foreignRule) := by
  have hwords : ∃ words, split foreignRule = cstr "-i" :: words := ⟨_, rfl⟩
  obtain ⟨words, hwords⟩ := hwords
  rw [hwords]
  exact .stop words rfl

theorem split_ownRule : split ownRule =
    [cstr "-p", cstr "tcp", cstr "-m", cstr "tcp", cstr "--dport", decNat 80,
    cstr "-j", cstr "DNAT", cstr "--to-destination",
      destination (cstr "10.0.0.1") (cstr "22")] := by
  decide +kernel

theorem follows_ownRule : Follows getParser (split ownRule) := by
  obtain ⟨-, hp, hm, hj, hdport, hdest⟩ := readArg_own
  rw [split_ownRule]
  exact .next _ hp (.next _ hm (.next _ hdport (.next _ hj (.next _ hdest .nil))))

/-- The rule of someone else stands first and is passed over, although it has the destination. -/
theorem edits_right_foreign : ∃ rules, Constructed plainIptables ⟨[foreignRule, ownRule], rules⟩ ∧
    (deleteByDestination plainIptables (cstr "10.0.0.1") (cstr "22")
      ⟨[foreignRule, ownRule], rules⟩).state.chain =
      [foreignRule] ∧
    (deleteByDestination plainIptables (cstr "10.0.0.1") (cstr "80")
      (add plainIptables (cstr "59.37.21.199") (cstr "80") (cstr "10.0.0.1")
        (cstr "80") (cstr "tcp")
        ⟨[foreignRule, ownRule], rules⟩).state).state.chain = [foreignRule, ownRule] := by
  obtain ⟨hconstruct, hright⟩ := edits_right plainIptables fun _ => rfl
  have hrules : ∀ rule ∈ [foreignRule, ownRule], Follows getParser (split rule) := by
    intro rule hr
    rcases List.mem_cons.mp hr with rfl | hr
    · exact follows_foreignRule
    · exact List.mem_singleton.mp hr ▸ follows_ownRule
  obtain ⟨rules, hrules⟩ := hconstruct _ hrules
  obtain ⟨hdelete, hadd, hundo⟩ := hright _ (Reach.of_init hrules)
  have hfirst : [foreignRule, ownRule].eraseP (sendsTo (cstr "10.0.0.1") (cstr "22")) =
      [foreignRule] := by
    decide +kernel
  have habsent : [foreignRule, ownRule].any (sendsTo (cstr "10.0.0.1") (cstr "80")) =
      false := by decide +kernel
  refine ⟨rules, hrules, (hdelete _ _).2.trans hfirst, ?_⟩
  have hspec : addSpec (cstr "59.37.21.199") (cstr "80") (cstr "10.0.0.1")
      (cstr "80") (cstr "tcp") =
      [cstr "-d", cstr "59.37.21.199", cstr "-p", cstr "tcp", cstr "-m", cstr "tcp",
        cstr "--dport", decNat 80,
        cstr "-j", cstr "DNAT", cstr "--to-destination",
          destination (cstr "10.0.0.1") (cstr "80")] := by
    decide +kernel
  refine (hundo _ _ _ _ _ _ rfl ⟨[cstr "-d", cstr "59.37.21.199"], cstr "tcp", 80,
    .inr ⟨_, rfl⟩, ?_⟩ habsent).2.2
  rw [hspec]
  decide +kernel

end LuoYun.Web.Firewall
