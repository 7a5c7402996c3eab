import LuoYun.Compute.NetStat
import Mathlib.Data.List.TakeWhile

/-!
# Which interface the statistics are of

The variables outlive an interface, so the search takes the first alias `net0` and the target that
stands next to it: the last one before it, in whatever interface, or the first one after it when
there is none. That is the target of `net0` unless the one that stands next is in another interface
(`strayDev`).
-/

namespace LuoYun

open XmlNode

/-- An alias with the name `net0`. -/
def isNet0 (node : XmlNode) : Bool := node.named (cstr "alias") && node.prop (cstr "name") =
    some (cstr "net0")

/-- The device of a target. -/
def targetDev (node : XmlNode) : Option Bytes :=
  if node.named (cstr "target") then node.prop (cstr "dev") else none

/-- The device of the first target that has one. -/
def firstDev (nodes : List XmlNode) : Option Bytes := (nodes.filterMap targetDev).head?

/-- The device of the last target that has one. -/
def lastDev (nodes : List XmlNode) : Option Bytes := (nodes.filterMap targetDev).getLast?

/-- The interface has the alias `net0`. -/
def hasNet0 (node : XmlNode) : Bool := node.children.any isNet0

/-- The interfaces of a domain. -/
def domainInterfaces (root : XmlNode) : List XmlNode :=
  if root.named (cstr "domain") then
    match root.children.find? (·.named (cstr "devices")) with
    | some devices => devices.children.filter (·.named (cstr "interface"))
    | none => []
  else []

/-- It is the device of a target of an interface with the alias `net0`. -/
def IsDevOfNet0 (interfaces : List XmlNode) (dev : Bytes) : Prop :=
  ∃ node ∈ interfaces, hasNet0 node = true ∧ ∃ target ∈ node.children, targetDev target = some dev

/-- **The right interface is asked for**, and none if there is no interface with the alias and a
target. -/
def AsksNet0 (reader : XmlReader) (ifstat : Bytes → Bytes → Option IfStat)
    (name xml : Bytes) : Prop :=
  let interfaces := ((reader xml).map domainInterfaces).getD []
  let r := domainXmlNetStat reader ifstat name xml
  (∀ n dev, r.asked = some (n, dev) → n = name ∧ IsDevOfNet0 interfaces dev) ∧
    ((∀ dev, ¬ IsDevOfNet0 interfaces dev) → r.asked = none ∧ r.ret = -1)

/-- The device of a target that stands next to the first alias `net0` but in another interface: the
last one of the interfaces before, if there is no target before the alias in its own interface, or
else the first one of the interfaces behind, if there is no target in its own interface at all. -/
def strayDev (interfaces : List XmlNode) : Option Bytes :=
  let before := interfaces.takeWhile fun node => !hasNet0 node
  match interfaces.dropWhile fun node => !hasNet0 node with
  | [] => none
  | node :: after =>
    match lastDev (node.children.takeWhile fun c => !isNet0 c) with
    | some _ => none
    | none =>
      match lastDev (before.flatMap children) with
      | some dev => some dev
      | none =>
        match firstDev node.children with
        | some _ => none
        | none => firstDev (after.flatMap children)

/-! ## The search -/

theorem alias_ne_target : cstr "alias" ≠ cstr "target" := by decide

theorem named_inj {node : XmlNode} {a b : Bytes} (ha : node.named a = true)
    (hb : node.named b = true) : a = b := by
  cases node with
  | element n _ _ => exact (eq_of_beq ha).symm.trans (eq_of_beq hb)
  | _ => cases ha

/-- An alias has no device. -/
theorem targetDev_of_net0 {node : XmlNode} (h : isNet0 node = true) : targetDev node = none := by
  rw [isNet0, Bool.and_eq_true] at h
  exact if_neg fun ht => alias_ne_target (named_inj h.1 ht)

/-- **What an element does**: the alias is found, or the target is taken. -/
theorem element_eq (s : NetSearch) (node : XmlNode) :
    s.element node =
      if isNet0 node then { s with found := true }
        else { s with target := (targetDev node).or s.target } := by
  unfold NetSearch.element isNet0 targetDev
  by_cases halias : node.named (cstr "alias") = true
  · have htarget : ¬ node.named (cstr "target") = true :=
      fun ht => alias_ne_target (named_inj halias ht)
    rw [if_pos halias, if_neg htarget, halias, Bool.true_and, Option.none_or]
    cases node.prop (cstr "name") with
    | none => simp
    | some str =>
      by_cases hstr : str = cstr "net0"
      · simp [hstr]
      · simp [hstr]
  · rw [if_neg halias, Bool.eq_false_iff.mpr halias, Bool.false_and, if_neg Bool.false_ne_true]
    by_cases htarget : node.named (cstr "target") = true
    · rw [if_pos htarget, if_pos htarget]
      cases node.prop (cstr "dev") with
      | none => rfl
      | some str => rfl
    · rw [if_neg htarget, if_neg htarget, Option.none_or]

/-- A node of any kind is an element that does nothing, or an element. -/
theorem netInterface_cons {s : NetSearch} (hs : s.done = false) (node : XmlNode)
    (nodes : List XmlNode) :
    netInterface s (node :: nodes) =
      if (s.element node).done then s.element node else netInterface (s.element node) nodes := by
  cases node with
  | element n attrs cs => rfl
  | _ =>
    show netInterface s nodes = if s.done = true then s else netInterface s nodes
    rw [hs]
    rfl

/-- Until the alias is found the targets replace each other. -/
theorem netInterface_before {nodes : List XmlNode} (h : ∀ node ∈ nodes, isNet0 node = false)
    (t : Option Bytes) :
    netInterface ⟨false, t⟩ nodes = ⟨false, (lastDev nodes).or t⟩ := by
  induction nodes generalizing t with
  | nil => rfl
  | cons node nodes ih =>
    have hnode : isNet0 node = false := h node List.mem_cons_self
    rw [netInterface_cons rfl, element_eq, hnode]
    show netInterface ⟨false, (targetDev node).or t⟩ nodes = _
    rw [ih fun c hc => h c (List.mem_cons_of_mem _ hc), lastDev, lastDev, List.filterMap_cons]
    cases targetDev node with
    | none => rfl
    | some dev =>
      dsimp only
      rw [List.getLast?_cons, ← Option.or_assoc]
      congr 1
      cases (nodes.filterMap targetDev).getLast? with
      | none => rfl
      | some d => rfl

/-- Once the alias is found the next target is taken. -/
theorem netInterface_after (nodes : List XmlNode) :
    netInterface ⟨true, none⟩ nodes = ⟨true, firstDev nodes⟩ := by
  induction nodes with
  | nil => rfl
  | cons node nodes ih =>
    rw [netInterface_cons rfl, element_eq, firstDev, List.filterMap_cons]
    cases hnode : isNet0 node with
    | true =>
      rw [targetDev_of_net0 hnode]
      exact ih
    | false =>
      cases targetDev node with
      | none => exact ih
      | some dev => rfl

theorem netInterface_append {s : NetSearch} (hs : s.done = false) (a b : List XmlNode) :
    netInterface s (a ++ b) =
      if (netInterface s a).done then netInterface s a else netInterface (netInterface s a) b := by
  induction a generalizing s with
  | nil =>
    show netInterface s b = if s.done = true then s else netInterface s b
    rw [hs]
    rfl
  | cons node a ih =>
    rw [List.cons_append, netInterface_cons hs, netInterface_cons hs]
    by_cases hdone : (s.element node).done = true
    · rw [if_pos hdone, if_pos hdone, if_pos hdone]
    · rw [if_neg hdone, if_neg hdone]
      exact ih (Bool.eq_false_iff.mpr hdone)

/-- **The two loops are one**, over what all interfaces have. -/
theorem netDevices_eq {s : NetSearch} (hs : s.done = false) (nodes : List XmlNode) :
    netDevices s nodes =
      netInterface s ((nodes.filter (·.named (cstr "interface"))).flatMap children) := by
  induction nodes generalizing s with
  | nil => rfl
  | cons node nodes ih =>
    by_cases hname : node.named (cstr "interface") = true
    · rw [List.filter_cons_of_pos hname, List.flatMap_cons, netInterface_append hs]
      cases node with
      | element n attrs cs =>
        rw [netDevices]
        rw [if_pos hname]
        by_cases hdone : (netInterface s cs).done = true
        · exact (if_pos hdone).trans (if_pos hdone).symm
        · exact (if_neg hdone).trans ((ih (Bool.eq_false_iff.mpr hdone)).trans (if_neg hdone).symm)
      | _ => cases hname
    · rw [List.filter_cons_of_neg hname, ← ih hs]
      cases node with
      | element n attrs cs =>
        rw [netDevices]
        rw [if_neg hname, hs]
        rfl
      | _ => rfl

/-! ## The first alias -/

theorem lastDev_append (a b : List XmlNode) : lastDev (a ++ b) = (lastDev b).or (lastDev a) := by
  rw [lastDev, List.filterMap_append, List.getLast?_append]
  rfl

theorem firstDev_append (a b : List XmlNode) :
    firstDev (a ++ b) = (firstDev a).or (firstDev b) := by
  rw [firstDev, List.filterMap_append, List.head?_append]
  rfl

theorem firstDev_mem {nodes : List XmlNode} {dev : Bytes} (h : firstDev nodes = some dev) :
    ∃ target ∈ nodes, targetDev target = some dev :=
  List.mem_filterMap.mp (List.mem_of_head? h)

theorem lastDev_mem {nodes : List XmlNode} {dev : Bytes} (h : lastDev nodes = some dev) :
    ∃ target ∈ nodes, targetDev target = some dev :=
  List.mem_filterMap.mp (List.mem_of_getLast? h)

theorem lastDev_none_iff (nodes : List XmlNode) : lastDev nodes = none ↔ firstDev nodes = none := by
  rw [lastDev, firstDev, List.getLast?_eq_none_iff, List.head?_eq_none_iff]

/-- **What is found**: the target before the first alias, or else the one after it. -/
theorem netInterface_first {before after : List XmlNode} {net0 : XmlNode}
    (hbefore : ∀ node ∈ before, isNet0 node = false) (halias : isNet0 net0 = true) :
    netInterface {} (before ++ net0 :: after) = ⟨true, (lastDev before).or (firstDev after)⟩ := by
  rw [netInterface_append rfl, netInterface_before hbefore, Option.or_none]
  show netInterface ⟨false, lastDev before⟩ (net0 :: after) = _
  rw [netInterface_cons rfl, element_eq, halias]
  cases lastDev before with
  | none => exact netInterface_after after
  | some dev => rfl

/-- A list up to its first element of a kind. -/
theorem takeWhile_dropWhile (p : XmlNode → Bool) (nodes : List XmlNode) :
    (nodes.dropWhile (fun c => !p c) = [] ∧ ∀ c ∈ nodes, p c = false) ∨
      ∃ c rest, nodes.dropWhile (fun c => !p c) = c :: rest ∧ p c = true ∧
        nodes = nodes.takeWhile (fun c => !p c) ++ c :: rest ∧
          ∀ c ∈ nodes.takeWhile (fun c => !p c), p c = false := by
  have hbefore : ∀ c ∈ nodes.takeWhile (fun c => !p c), p c = false := by
    intro c hc
    have hnot : (!p c) = true := List.mem_takeWhile_imp (p := fun c => !p c) hc
    exact (Bool.not_eq_true' _).mp hnot
  cases hd : nodes.dropWhile fun c => !p c with
  | nil =>
    refine .inl ⟨rfl, fun c hc => hbefore c ?_⟩
    have hall := List.takeWhile_append_dropWhile (p := fun c => !p c) (l := nodes)
    rw [hd, List.append_nil] at hall
    exact hall.symm ▸ hc
  | cons c rest =>
    refine .inr ⟨c, rest, rfl, ?_, ?_, hbefore⟩
    · have hhead := List.head?_dropWhile_not (fun c => !p c) nodes
      rw [hd] at hhead
      simpa using hhead
    · rw [← hd, List.takeWhile_append_dropWhile]

/-- No interface before has an alias, so what is found is one of four targets: the last before the
alias in its interface, the last of the interfaces before, the first behind the alias, the first of
the interfaces after. -/
theorem netInterface_split {before front rest : List XmlNode} {node net0 : XmlNode}
    (after : List XmlNode)
    (hothers : ∀ c ∈ before, hasNet0 c = false) (hfirst : ∀ c ∈ front, isNet0 c = false)
    (halias : isNet0 net0 = true) (hchildren : node.children = front ++ net0 :: rest) :
    netInterface {} ((before ++ node :: after).flatMap children) =
      ⟨true, ((lastDev front).or (lastDev (before.flatMap children))).or
        ((firstDev rest).or (firstDev (after.flatMap children)))⟩ := by
  have hflat : (before ++ node :: after).flatMap children =
      (before.flatMap children ++ front) ++ net0 :: (rest ++ after.flatMap children) := by
    rw [List.flatMap_append, List.flatMap_cons, hchildren]
    simp only [List.append_assoc, List.cons_append]
  rw [hflat, netInterface_first ?_ halias, lastDev_append, firstDev_append]
  intro c hc
  rcases List.mem_append.mp hc with hc | hc
  · obtain ⟨earlier, he, hc⟩ := List.mem_flatMap.mp hc
    exact Bool.eq_false_iff.mpr fun h =>
      Bool.false_ne_true ((hothers earlier he).symm.trans (List.any_eq_true.mpr ⟨c, hc, h⟩))
  · exact hfirst c hc

theorem firstDev_split {front rest : List XmlNode} {node net0 : XmlNode}
    (halias : isNet0 net0 = true) (hchildren : node.children = front ++ net0 :: rest) :
    firstDev node.children = (firstDev front).or (firstDev rest) := by
  rw [hchildren, firstDev_append, firstDev, firstDev, firstDev, List.filterMap_cons,
    targetDev_of_net0 halias]

/-- **Whose device it is**: of a target of an interface with the alias, or the stray one. -/
theorem search_cases (interfaces : List XmlNode) :
    (∃ dev, netInterface {} (interfaces.flatMap children) = ⟨true, some dev⟩ ∧
      IsDevOfNet0 interfaces dev ∧
        strayDev interfaces = none) ∨
      (∃ dev, netInterface {} (interfaces.flatMap children) = ⟨true, some dev⟩ ∧
        strayDev interfaces = some dev) ∨
      (netInterface {} (interfaces.flatMap children)).done = false ∧
        strayDev interfaces = none := by
  rw [strayDev]
  rcases takeWhile_dropWhile hasNet0 interfaces with
    ⟨hd, hnone⟩ | ⟨node, after, hd, hnode, hsplit, hothers⟩
  · -- no alias at all
    right
    right
    rw [hd]
    refine ⟨?_, rfl⟩
    rw [netInterface_before]
    · rfl
    · intro c hc
      obtain ⟨node, hn, hc⟩ := List.mem_flatMap.mp hc
      exact Bool.eq_false_iff.mpr fun h =>
        Bool.false_ne_true ((hnone node hn).symm.trans (List.any_eq_true.mpr ⟨c, hc, h⟩))
  · rw [hd]
    dsimp only
    generalize interfaces.takeWhile (fun node => !hasNet0 node) = before at hsplit hothers ⊢
    have hmem : node ∈ interfaces := hsplit ▸ List.mem_append_right _ List.mem_cons_self
    rcases takeWhile_dropWhile isNet0 node.children with
      ⟨-, hno⟩ | ⟨net0, rest, -, halias, hchildren, hfirst⟩
    · obtain ⟨c, hc, h⟩ := List.any_eq_true.mp hnode
      exact absurd ((hno c hc).symm.trans h) Bool.false_ne_true
    have hfound := (congrArg (fun l => netInterface {} (l.flatMap children)) hsplit).trans
      (netInterface_split after hothers hfirst halias hchildren)
    have hown := firstDev_split halias hchildren
    rw [show netInterface {} (interfaces.flatMap children) = _ from hfound]
    cases hbefore : lastDev (node.children.takeWhile fun c => !isNet0 c) with
    | some dev =>
      obtain ⟨target, ht, hdev⟩ := lastDev_mem hbefore
      exact .inl ⟨dev, rfl, ⟨node, hmem, hnode, target, List.takeWhile_subset _ ht, hdev⟩, rfl⟩
    | none =>
      rw [(lastDev_none_iff _).mp hbefore, Option.none_or] at hown
      rw [Option.none_or]
      cases lastDev (before.flatMap children) with
      | some dev => exact .inr (.inl ⟨dev, rfl, rfl⟩)
      | none =>
        rw [Option.none_or, hown]
        cases hrest : firstDev rest with
        | some dev =>
          obtain ⟨target, ht, hdev⟩ := firstDev_mem (hown.trans hrest)
          exact .inl ⟨dev, rfl, ⟨node, hmem, hnode, target, ht, hdev⟩, rfl⟩
        | none =>
          rw [Option.none_or]
          cases firstDev (after.flatMap children) with
          | some dev => exact .inr (.inl ⟨dev, rfl, rfl⟩)
          | none => exact .inr (.inr ⟨rfl, rfl⟩)

/-! ## The call -/

variable {reader : XmlReader} {ifstat : Bytes → Bytes → Option IfStat} {name xml : Bytes}

/-- What was found is asked for, and without a question the call has failed. -/
theorem asked_eq (reader : XmlReader) (ifstat : Bytes → Bytes → Option IfStat) (name xml : Bytes) :
    let search := netInterface {} ((((reader xml).map domainInterfaces).getD []).flatMap children)
    let r := domainXmlNetStat reader ifstat name xml
    r.asked = (if search.found then search.target.map fun dev => (name, dev) else none) ∧
      (r.asked = none → r.ret = -1) := by
  unfold domainXmlNetStat domainInterfaces
  cases reader xml with
  | none => exact ⟨rfl, fun _ => rfl⟩
  | some root =>
    dsimp only [Option.map_some, Option.getD_some]
    by_cases hroot : root.named (cstr "domain") = true
    · rw [if_pos hroot, if_neg (by rw [hroot]; exact Bool.noConfusion)]
      cases root.children.find? (·.named (cstr "devices")) with
      | none => exact ⟨rfl, fun _ => rfl⟩
      | some devices =>
        dsimp only
        rw [netDevices_eq rfl]
        generalize netInterface {}
          ((devices.children.filter (·.named (cstr "interface"))).flatMap children) = search
        obtain ⟨found, target⟩ := search
        cases found with
        | false => exact ⟨rfl, fun _ => rfl⟩
        | true =>
          cases target with
          | none => exact ⟨rfl, fun _ => rfl⟩
          | some target =>
            dsimp only
            cases ifstat name target with
            | none => exact ⟨rfl, fun _ => rfl⟩
            | some stat => exact ⟨rfl, nofun⟩
    · rw [if_neg hroot, if_pos (Bool.eq_false_iff.mpr hroot)]
      exact ⟨rfl, fun _ => rfl⟩

/-- **When the right interface is asked for**: if there is no stray target, or it happens to have
the device of `net0`. -/
theorem asksNet0_iff (reader : XmlReader) (ifstat : Bytes → Bytes → Option IfStat)
    (name xml : Bytes) :
    AsksNet0 reader ifstat name xml ↔
      ∀ dev, strayDev (((reader xml).map domainInterfaces).getD []) = some dev →
        IsDevOfNet0 (((reader xml).map domainInterfaces).getD []) dev := by
  obtain ⟨hasked, hfailed⟩ := asked_eq reader ifstat name xml
  unfold AsksNet0
  dsimp only
  generalize ((reader xml).map domainInterfaces).getD [] = interfaces at *
  generalize domainXmlNetStat reader ifstat name xml = r at *
  rcases search_cases interfaces with ⟨dev, hsearch, hdev, hstray⟩ |
      ⟨dev, hsearch, hstray⟩ | ⟨hnone, hstray⟩
  · rw [hsearch] at hasked
    refine ⟨fun _ d hd => absurd (hstray.symm.trans hd) (by simp),
      fun _ => ⟨fun n d hr => ?_, fun hno => ?_⟩⟩
    · obtain ⟨rfl, rfl⟩ := Prod.mk.inj (Option.some.inj (hasked.symm.trans hr))
      exact ⟨rfl, hdev⟩
    · exact absurd hdev (hno dev)
  · rw [hsearch] at hasked
    constructor
    · intro hasks d hd
      obtain rfl := Option.some.inj (hstray.symm.trans hd)
      exact (hasks.1 name dev hasked).2
    · intro hright
      refine ⟨fun n d hr => ?_, fun hno => absurd (hright dev hstray) (hno dev)⟩
      obtain ⟨rfl, rfl⟩ := Prod.mk.inj (Option.some.inj (hasked.symm.trans hr))
      exact ⟨rfl, hright dev hstray⟩
  · -- nothing was found together
    have hno : r.asked = none := by
      rw [hasked]
      generalize netInterface {} (interfaces.flatMap children) = search at hnone
      obtain ⟨found, target⟩ := search
      cases found with
      | false => rfl
      | true =>
        cases target with
        | none => rfl
        | some target => cases hnone
    refine ⟨fun _ d hd => absurd (hstray.symm.trans hd) (by simp),
      fun _ => ⟨fun n d hr => ?_, fun _ => ?_⟩⟩
    · exact absurd (hno.symm.trans hr) (by simp)
    · exact ⟨hno, hfailed hno⟩

/-- What was found is not a device of `net0`. -/
theorem not_asksNet0 {root : XmlNode} {dev : Bytes} (hread : reader xml = some root)
    (hsearch : netInterface {} ((domainInterfaces root).flatMap children) = ⟨true, some dev⟩)
    (hnot : ((domainInterfaces root).all fun node =>
      !(hasNet0 node && node.children.any fun target => targetDev target = some dev)) = true) :
    ¬ AsksNet0 reader ifstat name xml := by
  intro hasks
  have hasked := (asked_eq reader ifstat name xml).1
  rw [hread, Option.map_some, Option.getD_some, hsearch] at hasked
  obtain ⟨-, node, hnode, hnet0, target, ht, hdev⟩ := hasks.1 name dev hasked
  rw [hread] at hnode
  have hno := List.all_eq_true.mp hnot node hnode
  rw [hnet0, Bool.true_and, Bool.not_eq_true', ← Bool.not_eq_true] at hno
  exact hno (List.any_eq_true.mpr ⟨target, ht, decide_eq_true hdev⟩)

theorem exists_reader (xml : Bytes) (root : XmlNode) :
    ∃ reader : XmlReader, reader xml = some root :=
  ⟨fun text => if text = xml then some root else none, if_pos rfl⟩

/-- The document of a domain with these interfaces. -/
def domainOf (interfaces : List XmlNode) : XmlNode :=
  .element (cstr "domain") [] [.element (cstr "devices") [] interfaces]

def aliasNode (name : String) : XmlNode := .element (cstr "alias") [(cstr "name", cstr name)] []

def targetNode (dev : String) : XmlNode := .element (cstr "target") [(cstr "dev", cstr dev)] []

/-- Two interfaces, the second of which has its alias in front. -/
def twoInterfaces : XmlNode :=
  domainOf [.element (cstr "interface") [] [targetNode "vnet0", aliasNode "net1"],
    .element (cstr "interface") [] [aliasNode "net0", targetNode "vnet1"]]

def twoInterfacesXml : Bytes :=
  cstr "<domain><devices><interface><target dev='vnet0'/><alias name='net1'/></interface>" ++
    cstr "<interface><alias name='net0'/><target dev='vnet1'/></interface></devices></domain>"

/-- The interface `net0` has no target. -/
def noTarget : XmlNode :=
  domainOf [.element (cstr "interface") [] [aliasNode "net0"],
    .element (cstr "interface") [] [targetNode "vnet1", aliasNode "net1"]]

def noTargetXml : Bytes :=
  cstr "<domain><devices><interface><alias name='net0'/></interface>" ++
    cstr "<interface><target dev='vnet1'/><alias name='net1'/></interface></devices></domain>"

/-- In both documents libvirt is asked for the device of `net1`. -/
theorem asks_net1 :
    (¬ ∀ (reader : XmlReader) (ifstat : Bytes → Bytes → Option IfStat) (name : Bytes),
        reader twoInterfacesXml = some twoInterfaces →
          AsksNet0 reader ifstat name twoInterfacesXml) ∧
      ¬ ∀ (reader : XmlReader) (ifstat : Bytes → Bytes → Option IfStat) (name : Bytes),
        reader noTargetXml = some noTarget → AsksNet0 reader ifstat name noTargetXml := by
  have hstray : netInterface {} ((domainInterfaces twoInterfaces).flatMap children) =
      ⟨true, some (cstr "vnet0")⟩ := by
    rfl
  have hmissing : netInterface {} ((domainInterfaces noTarget).flatMap children) =
      ⟨true, some (cstr "vnet1")⟩ := by
    rfl
  constructor
  · intro hall
    obtain ⟨reader, hread⟩ := exists_reader twoInterfacesXml twoInterfaces
    exact not_asksNet0 hread hstray (rfl) (hall reader (fun _ _ => none) [] hread)
  · intro hall
    obtain ⟨reader, hread⟩ := exists_reader noTargetXml noTarget
    exact not_asksNet0 hread hmissing (rfl) (hall reader (fun _ _ => none) [] hread)

end LuoYun
