import Overlay.Proofs.Network.CreationPath

/-!
# A body has all of a resource but the parent

The fields of a body are the columns of a resource that have a value (`Resource.fields_eq`). No two
columns of a kind have one name, so a column that is left out cannot be mistaken for another one
(`present_inj`), and the value of a column determines the part of the resource that it was made of.
So resources of one kind have the same body if and only if they are the same but for their parents
(`Resource.body_eq_iff`).
-/

namespace Overlay

/-! ## Columns -/

/-- The columns that have a value. -/
def present {α : Type} (columns : List (String × Option α)) : List (String × α) :=
  columns.filterMap fun c => c.2.map fun value => (c.1, value)

section Present

variable {α : Type} {l l' : List (String × Option α)} {name : String}

theorem present_cons (name : String) (v : Option α) (l : List (String × Option α)) :
    present ((name, v) :: l) = (v.map (Prod.mk name)).toList ++ present l := by
  cases v <;> rfl

theorem not_mem_present (h : name ∉ l.map Prod.fst) (value : α) : (name, value) ∉ present l := by
  intro hm
  obtain ⟨c, hc, hvalue⟩ := List.mem_filterMap.mp hm
  obtain ⟨_, -, he⟩ := Option.map_eq_some_iff.mp hvalue
  have hname : c.1 = name := congrArg Prod.fst he
  exact h (hname ▸ List.mem_map_of_mem hc)

/-- A column that is left out is not mistaken for another one, as its name is its own. -/
theorem present_inj (hnames : l.map Prod.fst = l'.map Prod.fst) (hnodup : (l.map Prod.fst).Nodup)
    (h : present l = present l') : l = l' := by
  induction l generalizing l' with
  | nil => exact (List.map_eq_nil_iff.mp hnames.symm).symm
  | cons c l ih =>
    cases l' with
    | nil => cases hnames
    | cons c' l' =>
      obtain ⟨name, v⟩ := c
      obtain ⟨name', v'⟩ := c'
      obtain ⟨rfl, htail⟩ := List.cons.inj hnames
      obtain ⟨hnew, hothers⟩ := List.nodup_cons.mp hnodup
      cases v with
      | none =>
        cases v' with
        | none => rw [ih htail hothers h]
        | some value =>
          have hl : present l = (name, value) :: present l' := h
          exact absurd (hl ▸ List.mem_cons_self) (not_mem_present hnew value)
      | some value =>
        cases v' with
        | none =>
          have hl : (name, value) :: present l = present l' := h
          exact absurd (hl ▸ List.mem_cons_self) (not_mem_present (htail ▸ hnew) value)
        | some value' =>
          have hl : (name, value) :: present l = (name, value') :: present l' := h
          obtain ⟨hvalue, hrest⟩ := List.cons.inj hl
          cases hvalue
          rw [ih htail hothers hrest]

end Present

namespace Resource

/-- The value of the column with the addresses of a port. -/
def subnetsJson? (subnets : List Subnet) : Option Json :=
  if subnets = [] then none else some (.array (subnets.map fun s => .string s.text))

def Device.columns (d : Device) : List (String × Option Json) :=
  [("id", idJson d.id), ("tenantId", some (.string d.tenant)), ("name", some (.string d.name)),
    ("inboundFilterId", d.inboundFilter.map idJson),
    ("outboundFilterId", d.outboundFilter.map idJson)]

/-- The fields that bodies of a kind can have, with their values. -/
def columns : Resource → List (String × Option Json)
  | tunnelZone r =>
    [("id", idJson r.id), ("name", some (.string r.name)), ("type", some (.string r.encapsulation))]
  | tunnelZoneHost r => [("hostId", idJson r.hostId), ("ipAddress", addressJson r.address)]
  | router r | bridge r => r.columns
  | port r =>
    [("id", idJson r.id), ("type", some (.string r.type.name)),
      ("portSubnet", subnetsJson? r.subnets), ("portMac", r.mac.map macJson),
      ("inboundFilterId", r.inboundFilter.map idJson),
      ("outboundFilterId", r.outboundFilter.map idJson)]
  | portLink r => [("portId", idJson r.portId), ("peerId", idJson r.peerId)]
  | route r =>
    [("id", idJson r.id), ("dstNetworkAddr", addressJson r.destination),
      ("dstNetworkLength", byteJson r.destinationLength),
      ("nextHopGateway", r.gateway.map addressJson), ("nextHopPort", idJson r.nextHopPort),
      ("srcNetworkAddr", addressJson r.source), ("srcNetworkLength", byteJson r.sourceLength),
      ("type", some (.string "Normal"))]
  | chain r =>
    [("id", idJson r.id), ("tenantId", some (.string r.tenant)), ("name", some (.string r.name))]
  | rule r =>
    [("id", idJson r.id), ("type", some (.string r.type.name)), ("dlType", r.etherType.map wordJson),
      ("nwDstAddress", r.destination.map addressJson),
      ("nwDstLength", r.destinationLength.map byteJson), ("nwProto", r.protocol.map byteJson),
      ("tpDst", r.destinationPorts.map PortRange.json), ("jumpChainId", r.jumpChain.map idJson),
      ("flowAction", r.action.map fun a => .string a.name),
      ("natTargets", r.targets.map fun ts => .array (ts.map NatTarget.json))]
  | host r => [("id", idJson r.id), ("name", some (.string r.name))]
  | hostInterfacePort r =>
    [("hostId", idJson r.hostId), ("portId", idJson r.portId),
      ("interfaceName", some (.string r.interface))]
  | macPort r => [("macAddr", macJson r.mac), ("portId", idJson r.portId)]
  | ipv4MacPair r => [("ip", addressJson r.address), ("mac", macJson r.mac)]

theorem optional_eq {α : Type} (name : String) (json : α → Json) (v : Option α) :
    optional name json v = ((v.map json).map (Prod.mk name)).toList := by
  cases v <;> rfl

theorem optional_subnets (subnets : List Subnet) :
    (if subnets = [] then [] else [("portSubnet", Json.array (subnets.map fun s => .string s.text))])
      = ((subnetsJson? subnets).map (Prod.mk "portSubnet")).toList := by
  rw [subnetsJson?]
  split <;> rfl

/-- The fields of a resource are its columns that have a value. -/
theorem fields_eq (r : Resource) : r.fields = present r.columns := by
  have hnil : present ([] : List (String × Option Json)) = [] := rfl
  cases r <;> simp [fields, columns, Device.fields, Device.columns, optional_eq, optional_subnets,
    present_cons, hnil]

/-- Resources of one kind have columns of the same names. -/
theorem names_columns {r n : Resource} (hk : r.kind = n.kind) :
    r.columns.map Prod.fst = n.columns.map Prod.fst := by
  cases r <;> cases n <;> cases hk <;>
    simp only [columns, Device.columns, List.map_cons, List.map_nil]

/-- No two columns of a resource have one name. -/
theorem nodup_names_columns (r : Resource) : (r.columns.map Prod.fst).Nodup := by
  cases r <;> simp [columns, Device.columns]

/-! ## What a column says -/

theorem idJson_inj {u v : Uuid} : idJson u = idJson v ↔ u = v := by
  rw [idJson, idJson, Json.string.injEq, Uuid.text_inj]

theorem addressJson_inj {a b : Ipv4} : addressJson a = addressJson b ↔ a = b := by
  rw [addressJson, addressJson, Json.string.injEq, Ipv4.text_inj]

theorem macJson_inj {m n : Mac} : macJson m = macJson n ↔ m = n := by
  rw [macJson, macJson, Json.string.injEq, Mac.text_inj]

theorem byteJson_inj {m n : UInt8} : byteJson m = byteJson n ↔ m = n := by
  rw [byteJson, byteJson, Json.integer.injEq, Int.natCast_inj, UInt8.toNat_inj]

theorem wordJson_inj {m n : UInt16} : wordJson m = wordJson n ↔ m = n := by
  rw [wordJson, wordJson, Json.integer.injEq, Int.natCast_inj, UInt16.toNat_inj]

theorem PortType.name_inj {t u : PortType} : t.name = u.name ↔ t = u := by
  cases t <;> cases u <;> decide

theorem RuleType.name_inj {t u : RuleType} : t.name = u.name ↔ t = u := by
  cases t <;> cases u <;> decide

theorem FlowAction.name_inj {a b : FlowAction} : a.name = b.name ↔ a = b := by
  cases a
  cases b
  decide

/-- Ranges of ports are told apart by their JSON. -/
theorem PortRange.json_inj {p q : PortRange} : p.json = q.json ↔ p = q := by
  cases p
  cases q
  simp [json, wordJson_inj]

/-- Targets of a translation are told apart by their JSON. -/
theorem NatTarget.json_inj {t u : NatTarget} : t.json = u.json ↔ t = u := by
  cases t
  cases u
  simp [json, wordJson_inj, addressJson_inj]

/-- Lists of subnets are told apart by their JSON. -/
theorem subnetsJson?_inj {ss ts : List Subnet} : subnetsJson? ss = subnetsJson? ts ↔ ss = ts := by
  have hitems : ss.map (fun s => Json.string s.text) = ts.map (fun s => Json.string s.text)
      ↔ ss = ts :=
    List.map_inj_right fun _ _ h => Subnet.text_inj.mp (Json.string.inj h)
  cases ss <;> cases ts <;> simp_all [subnetsJson?]

theorem targetsJson_inj {ts us : List NatTarget} :
    Json.array (ts.map NatTarget.json) = Json.array (us.map NatTarget.json) ↔ ts = us := by
  rw [Json.array.injEq]
  exact List.map_inj_right fun _ _ => NatTarget.json_inj.mp

/-- A column that can be left out says all of its value. -/
theorem map_json_inj {α : Type} {json : α → Json} (hjson : ∀ {a b}, json a = json b ↔ a = b)
    {v w : Option α} : v.map json = w.map json ↔ v = w :=
  Option.map_inj_right fun _ _ => hjson.mp

theorem actionJson_inj {a b : FlowAction} : Json.string a.name = Json.string b.name ↔ a = b := by
  rw [Json.string.injEq, FlowAction.name_inj]

/-- Only the parent is in no column. -/
theorem withParent_eq_of_columns_eq {r n : Resource} (hk : r.kind = n.kind)
    (h : r.columns = n.columns) (parent : Uuid) : r.withParent parent = n.withParent parent := by
  cases r <;> cases n <;> cases hk
  all_goals
    next a b =>
      cases a
      cases b
      simpa [columns, Device.columns, withParent, idJson_inj, addressJson_inj, macJson_inj,
        byteJson_inj, PortType.name_inj, RuleType.name_inj, subnetsJson?_inj,
        map_json_inj idJson_inj, map_json_inj addressJson_inj, map_json_inj macJson_inj,
        map_json_inj byteJson_inj, map_json_inj wordJson_inj, map_json_inj PortRange.json_inj,
        map_json_inj actionJson_inj, map_json_inj targetsJson_inj] using h

/-! ## The body -/

theorem PortRange.integral_json (p : PortRange) : p.json.Integral := by
  refine .object ?_
  simp [wordJson]

theorem NatTarget.integral_json (t : NatTarget) : t.json.Integral := by
  refine .object ?_
  simp [wordJson, addressJson]

theorem integral_targets (ts : List NatTarget) :
    (Json.array (ts.map NatTarget.json)).Integral := by
  refine .array ?_
  simp [NatTarget.integral_json]

theorem integral_of_subnetsJson? {subnets : List Subnet} {value : Json}
    (h : subnetsJson? subnets = some value) : value.Integral := by
  rw [subnetsJson?] at h
  split at h
  · cases h
  · cases h
    refine .array ?_
    simp

/-- All numbers in the columns of a resource are integers. -/
theorem integral_columns (r : Resource) : ∀ c ∈ r.columns, ∀ value ∈ c.2, value.Integral := by
  cases r
  case port r =>
    have hsubnets : ∀ value, subnetsJson? r.subnets = some value → value.Integral :=
      fun _ => integral_of_subnetsJson?
    simpa [columns, idJson, macJson] using hsubnets
  all_goals
    simp [columns, Device.columns, idJson, addressJson, macJson, byteJson, wordJson,
      PortRange.integral_json, integral_targets]

theorem integral_fields (r : Resource) : (Json.object r.fields).Integral := by
  rw [fields_eq]
  refine .object fun f hf => ?_
  obtain ⟨c, hc, hvalue⟩ := List.mem_filterMap.mp hf
  obtain ⟨value, hv, rfl⟩ := Option.map_eq_some_iff.mp hvalue
  exact integral_columns r c hc value hv

variable {r n : Resource}

/-- Resources of one kind with one body have the same columns. -/
theorem columns_eq_of_body_eq (hk : r.kind = n.kind) (h : r.body = n.body) :
    r.columns = n.columns := by
  have hfields : r.fields = n.fields :=
    Json.object.inj ((r.integral_fields.text_inj n.integral_fields).mp h)
  rw [fields_eq, fields_eq] at hfields
  exact present_inj (names_columns hk) r.nodup_names_columns hfields

/-- Resources of one kind have one body if and only if they are equal under any one parent. -/
theorem body_eq_iff_withParent (hk : r.kind = n.kind) :
    r.body = n.body ↔ ∀ parent, r.withParent parent = n.withParent parent := by
  constructor
  · intro h
    exact withParent_eq_of_columns_eq hk (columns_eq_of_body_eq hk h)
  · intro h
    rw [← body_withParent default r, h default, body_withParent]

theorem withParent_parent (parent : Uuid) (r : Resource) :
    r.withParent (r.parent?.getD parent) = r := by
  cases r <;> rfl

/-- A body and a parent make up the resource. -/
theorem eq_iff_body_parent (hk : r.kind = n.kind) :
    r.body = n.body ∧ r.parent? = n.parent? ↔ r = n := by
  constructor
  · rintro ⟨hbody, hparent⟩
    have hsame := (body_eq_iff_withParent hk).mp hbody (r.parent?.getD default)
    rw [withParent_parent, hparent, withParent_parent] at hsame
    exact hsame
  · rintro rfl
    exact ⟨rfl, rfl⟩

/-- Resources of one kind have the same body if and only if they are the same but for their parents,
so what an update sends has all that the resource has, and another parent is not another body. -/
theorem body_eq_iff (hk : r.kind = n.kind) :
    (r.body = n.body ↔ ∀ parent, r.withParent parent = n.withParent parent)
    ∧ (r.body = n.body ∧ r.parent? = n.parent? ↔ r = n)
    ∧ (∀ q q', Request.of .update r = .ok q → Request.of .update n = .ok q' →
      (q.body = q'.body ↔ ∀ parent, r.withParent parent = n.withParent parent))
    ∧ ∀ parent, (r.withParent parent).body = r.body := by
  refine ⟨body_eq_iff_withParent hk, eq_iff_body_parent hk, ?_,
    fun parent => body_withParent parent r⟩
  intro q q' hq hq'
  rw [(Request.of_eq_ok hq).2.2.2 (Or.inr rfl), (Request.of_eq_ok hq').2.2.2 (Or.inr rfl),
    Option.some.injEq]
  exact body_eq_iff_withParent hk

/-! ### A port on two devices -/

def portOn (parent : Uuid) (filter : Option Uuid) : Resource :=
  .port { parent, id := ⟨3⟩, type := .bridge, subnets := [], mac := none, inboundFilter := filter,
          outboundFilter := none }

/-- The port has one body on both devices, and another one with a filter. -/
theorem body_eq_iff_portOn :
    (portOn ⟨1⟩ none).kind = (portOn ⟨2⟩ none).kind
    ∧ (portOn ⟨1⟩ none).body = (portOn ⟨2⟩ none).body
    ∧ (portOn ⟨1⟩ none).kind = (portOn ⟨1⟩ (some ⟨4⟩)).kind
    ∧ (portOn ⟨1⟩ none).body ≠ (portOn ⟨1⟩ (some ⟨4⟩)).body := by
  have hdevices : (portOn ⟨1⟩ none).kind = (portOn ⟨2⟩ none).kind := rfl
  have hfilters : (portOn ⟨1⟩ none).kind = (portOn ⟨1⟩ (some ⟨4⟩)).kind := rfl
  refine ⟨hdevices, (body_eq_iff hdevices).1.mpr fun parent => rfl, hfilters, fun h => ?_⟩
  have hsame := (body_eq_iff hfilters).1.mp h ⟨1⟩
  revert hsame
  decide

end Resource

end Overlay
