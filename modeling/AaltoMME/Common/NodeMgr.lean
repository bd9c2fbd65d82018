import AaltoMME.Platform

/-!
# The node manager

`getNode` hands out the nodes of the configuration file in turn, with a static index for each type of node.  The number
of nodes is an octet, and nothing looks at their status.
-/

namespace AaltoMME

open Base

inductive NodeType
  | mme
  | eNB
  | sgw
  | pgw
  | ue
  | ctrl
  deriving DecidableEq, Repr

inductive NodeStatus
  | down
  | up
  | busy
  deriving DecidableEq, Repr

/-- A node of the configuration file; a setting may be missing. -/
structure NodeCfg where
  name : Option String
  ipv4 : Option String
  ipv6 : Option String
  status : Option String

/-- What `getNode` writes.  `none` is a type or a status that is invalid, or an address that is not written. -/
structure NodeInfo where
  name : String
  addrv4 : Option (List UInt8)
  addrv6 : Option (List UInt8)
  status : Option NodeStatus
  type : Option NodeType
  deriving DecidableEq, Repr

def maxHostName : Nat := 30

/-- The list of nodes of each type, if the file has it, and `inet_pton` for the two families. -/
structure NodeMgr where
  nodes : NodeType → Option (List NodeCfg)
  inetPton4 : String → Option (List UInt8)
  inetPton6 : String → Option (List UInt8)

namespace NodeMgr

variable (cfg : NodeMgr)

def statusOf : String → Option NodeStatus
  | "down" => some .down
  | "up" => some .up
  | "busy" => some .busy
  | _ => none

/-- The second half of `getNode`: a missing setting leaves pointers uninitialised, and a long name does not fit. -/
def parse (type : Option NodeType) (c : NodeCfg) : Option NodeInfo := do
  let name ← c.name
  let ip4 ← c.ipv4
  let ip6 ← c.ipv6
  let status ← c.status
  guard (name.utf8ByteSize < maxHostName)
  pure ⟨name, cfg.inetPton4 ip4, cfg.inetPton6 ip6, statusOf status, type⟩

/-- `getNode`, given the static indices.  There is no result when the process ends: an empty list is divided by, a node
behind the end of its list is a NULL pointer, and the other types have no list. -/
def getNode (index : NodeType → UInt8) (type : NodeType) : Option (NodeInfo × (NodeType → UInt8)) := do
  guard (type ≠ .eNB ∧ type ≠ .ue)
  let nodes ← cfg.nodes type
  let count := UInt8.ofNat nodes.length
  guard (count ≠ 0)
  let node ← nodes[(index type).toNat]?
  let info ← cfg.parse (if type = .mme then none else some type) node
  pure (info, Function.update index type (.ofNat (((index type).toNat + 1) % count.toNat)))

/-- Calls of `getNode`, one after the other. -/
def getNodes : (NodeType → UInt8) → List NodeType → Option (List NodeInfo)
  | _, [] => some []
  | index, type :: types => do
    let (info, index) ← cfg.getNode index type
    let infos ← getNodes index types
    pure (info :: infos)

/-- The file has `n` nodes of the type, and `getNode` can read them. -/
structure Lists (type : NodeType) (n : Nat) (info : Nat → NodeInfo) : Prop where
  pos : 0 < n
  lt : n < 256
  known : type ≠ .eNB ∧ type ≠ .ue
  nodes : ∃ l, cfg.nodes type = some l ∧ l.length = n ∧
    ∀ i c, l[i]? = some c → cfg.parse (if type = .mme then none else some type) c = some (info i)

variable {cfg} {n : NodeType → Nat} {f : NodeType → Nat → NodeInfo}

theorem Lists.getNode_eq {type : NodeType} {m : Nat} {info : Nat → NodeInfo} (h : cfg.Lists type m info)
    {index : NodeType → UInt8} {k : Nat} (hk : (index type).toNat = k % m) :
    ∃ index', cfg.getNode index type = some (info (k % m), index') ∧ (index' type).toNat = (k + 1) % m ∧
      ∀ t, t ≠ type → index' t = index t := by
  obtain ⟨l, hl, rfl, hparse⟩ := h.nodes
  have hmod : ∀ j, j % l.length < l.length := fun j => Nat.mod_lt j h.pos
  have hcount : (UInt8.ofNat l.length).toNat = l.length := UInt8.toNat_ofNat_of_lt' h.lt
  have hne : UInt8.ofNat l.length ≠ 0 := by
    intro heq
    exact absurd (hcount.symm.trans (congrArg UInt8.toNat heq)) (Nat.ne_of_gt h.pos)
  have hinfo := hparse _ _ (List.getElem?_eq_getElem (hmod k))
  refine ⟨Function.update index type (.ofNat ((k % l.length + 1) % l.length)), ?_, ?_, fun t ht =>
    Function.update_of_ne ht _ _⟩
  · simp [getNode, guard, h.known, hl, hne, hk, Nat.mod_eq_of_lt h.lt, List.getElem?_eq_getElem (hmod k), hinfo]
  · rw [Function.update_self, Nat.mod_add_mod]
    exact UInt8.toNat_ofNat_of_lt' (Nat.lt_trans (hmod _) h.lt)

/-- After `k t` calls for each type, the nodes of a type go on being handed out in turn, each of them every `n t` calls,
whatever is asked for in between. -/
theorem getNodes_in_turn {types : List NodeType} {k : NodeType → Nat} (index : NodeType → UInt8)
    (h : ∀ t ∈ types, cfg.Lists t (n t) (f t)) (hk : ∀ t, (index t).toNat = k t % n t) :
    ∃ infos, cfg.getNodes index types = some infos ∧
      ∀ i t, types[i]? = some t → infos[i]? = some (f t ((k t + (types.take i).count t) % n t)) := by
  induction types generalizing k index with
  | nil => exact ⟨[], rfl, nofun⟩
  | cons type types ih =>
    obtain ⟨hhead, htail⟩ := List.forall_mem_cons.mp h
    obtain ⟨index', hnode, hnext, hother⟩ := hhead.getNode_eq (hk type)
    obtain ⟨infos, hinfos, hturn⟩ := ih (k := Function.update k type (k type + 1)) index' htail fun t => by
      by_cases ht : t = type
      · subst ht
        rw [Function.update_self, hnext]
      · rw [Function.update_of_ne ht, hother t ht, hk]
    refine ⟨f type (k type % n type) :: infos, by simp [getNodes, hnode, hinfos], fun i t hi => ?_⟩
    cases i with
    | zero =>
      cases hi
      rfl
    | succ i =>
      rw [List.getElem?_cons_succ, hturn i t hi, List.take_succ_cons, List.count_cons]
      by_cases ht : t = type
      · subst ht
        simp [Nat.add_assoc, Nat.add_comm 1]
      · simp [Function.update_of_ne ht, Ne.symm ht]

def Sample.gateways : NodeMgr where
  nodes
    | .sgw => some [⟨some "a", some "", some "", some "up"⟩, ⟨some "b", some "", some "", some "down"⟩]
    | .pgw => some [⟨some "c", some "", some "", some "up"⟩]
    | _ => none
  inetPton4 _ := none
  inetPton6 _ := none

def Sample.info : NodeType → Nat → NodeInfo
  | .sgw, 0 => ⟨"a", none, none, some .up, some .sgw⟩
  | .sgw, _ => ⟨"b", none, none, some .down, some .sgw⟩
  | t, _ => ⟨"c", none, none, some .up, some t⟩

/-- The third of three attaches gets the first serving gateway again. -/
theorem getNodes_in_turn_attach :
    ∃ infos, Sample.gateways.getNodes (fun _ => 0) [.sgw, .pgw, .sgw, .pgw, .sgw] = some infos ∧
      infos[4]? = some ⟨"a", none, none, some .up, some .sgw⟩ := by
  have hlists : ∀ t ∈ [NodeType.sgw, .pgw, .sgw, .pgw, .sgw],
      Sample.gateways.Lists t (if t = .sgw then 2 else 1) (Sample.info t) := by
    intro t ht
    obtain rfl | rfl : t = .sgw ∨ t = .pgw := by
      revert t
      decide
    · refine ⟨by decide, by decide, by decide, _, rfl, rfl, fun i c hi => ?_⟩
      match i, hi with
      | 0, rfl | 1, rfl => decide
    · refine ⟨by decide, by decide, by decide, _, rfl, rfl, fun i c hi => ?_⟩
      match i, hi with
      | 0, rfl => decide
  obtain ⟨infos, hinfos, hturn⟩ := getNodes_in_turn (k := fun _ => 0) (fun _ => 0) hlists fun _ => (Nat.zero_mod _).symm
  exact ⟨infos, hinfos, hturn 4 .sgw rfl⟩

end NodeMgr

end AaltoMME
