import InfraSmells.Config.BuiltIn
import InfraSmells.Proofs.Decimal.Integer
import InfraSmells.Proofs.Policy.Union
import Mathlib.Order.Interval.Set.Basic

/-!
# Ports that a firewall opens

A port, a range of ports and the mark for all ports denote sets of ports (`Policy.Denotes`), each one
set (`Policy.Denotes.unique`). The check of firewalls compares the texts of ports with those of the ports
of management (`Policy.exposedRule_admitted`). So what it reports is open (`Policy.manages_of_mem`), and
what is open is reported where ports are written plainly (`Policy.exists_known`), because a plain number
has one text (`Policy.eq_of_value`). But a range around a port of management is overlooked, and so is a
port with a zero in front (`Policy.management_ports_reported`, `Policy.range_overlooked`).
-/

namespace InfraSmells.Policy

/-! ## Ports -/

/-- The characters are a port, a range of ports or the mark for all of them, and these are the ports. -/
inductive Denotes : List Char → Set ℕ → Prop where
  | one {ds : List Char} (hds : IsNumeral ds) : Denotes ds {Nat.ofDigitChars 10 ds 0}
  | range {ds es : List Char} (hds : IsNumeral ds) (hes : IsNumeral es) :
    Denotes (ds ++ '-' :: es) (Set.Icc (Nat.ofDigitChars 10 ds 0) (Nat.ofDigitChars 10 es 0))
  | all : Denotes ['*'] (Set.Iio 65536)

section
variable {cs ds : List Char} {ports ports' : Set ℕ}

/-- Ranges are cut at one place. -/
theorem range_inj {ds es ds' es' : List Char} (hds : IsNumeral ds) (hds' : IsNumeral ds')
    (h : ds ++ '-' :: es = ds' ++ '-' :: es') : ds = ds' ∧ es = es' := by
  have hdash (es : List Char) : ∀ c ∈ ('-' :: es).head?, Text.isDigit c = false := by
    simp [Text.isDigit]
  obtain ⟨htake, -⟩ := Text.span_digits hds.2 (hdash es)
  obtain ⟨htake', -⟩ := Text.span_digits hds'.2 (hdash es')
  have heq : ds = ds' := by rw [← htake, h, htake']
  subst heq
  exact ⟨rfl, (List.cons.inj (List.append_cancel_left h)).2⟩

/-- Characters denote one set of ports. -/
theorem Denotes.unique (h : Denotes cs ports) (h' : Denotes cs ports') : ports = ports' := by
  have hdash : Text.isDigit '-' = false := by decide
  have hstar : Text.isDigit '*' = false := by decide
  generalize hcs : cs = cs' at h'
  cases h with
  | one hds =>
    cases h' with
    | one => rw [hcs]
    | range => exact absurd (by simp [hcs]) (hds.notMem hdash)
    | all => exact absurd (by simp [hcs]) (hds.notMem hstar)
  | range hds hes =>
    cases h' with
    | one hds' => exact absurd (by simp [← hcs]) (hds'.notMem hdash)
    | range hds' hes' =>
      obtain ⟨rfl, rfl⟩ := range_inj hds hds' hcs
      rfl
    | all => exact absurd (congrArg ('-' ∈ ·) hcs) (by simp)
  | all =>
    cases h' with
    | one hds' => exact absurd (by simp [← hcs]) (hds'.notMem hstar)
    | range => exact absurd (congrArg ('-' ∈ ·) hcs) (by simp)
    | all => rfl

/-- A port of management that is written as a plain number has the text that the check knows. -/
theorem eq_of_value {t : String} (hds : IsNumeral t.toList) (hhead : t.toList.head? ≠ some '0')
    {n : ℕ} (hn : Nat.ofDigitChars 10 t.toList 0 = n) : t = String.ofList (Nat.toDigits 10 n) := by
  rw [← hn, hds.toDigits_eq hhead, String.ofList_toList]

end

/-! ## Rules of a firewall -/

/-- The texts of the items of a list, or the text of any other value, as they are written. -/
def itemTexts : Expr → List String
  | .array _ items => items.map Expr.text
  | e => [e.text]

/-- The first attribute of a rule with a name, if it has a value. -/
def member? (rule : List Pair) (name : String) : Option Pair :=
  valued? (firstIn name [] rule)

/-- The texts of the ports to which a rule lets connections through. -/
def destinations (rule : List Pair) : List String :=
  ["destination_port_range", "destination_port_ranges"].flatMap fun name =>
    (member? rule name).elim [] fun p => itemTexts p.value

/-- The ports that texts denote together. -/
def opened (texts : List String) : Set ℕ :=
  {n | ∃ t ∈ texts, ∃ ports, Denotes t.toList ports ∧ n ∈ ports}

/-- Some port of management is among the ports. -/
def Manages (ports : Set ℕ) : Prop :=
  22 ∈ ports ∨ 3389 ∈ ports

/-- The text denotes ports, and no port of management if it is a range or has a zero in front. -/
def IsPlain (t : String) : Prop :=
  ∃ ports, Denotes t.toList ports ∧ ('-' ∈ t.toList ∨ t.toList.head? = some '0' → ¬Manages ports)

/-- The rule lets connections through from the whole internet, as its source says. -/
structure AdmitsAll (rule : List Pair) (source : Pair) : Prop where
  access : ∃ p, member? rule "access" = some p ∧ p.value.literal = "allow"
  protocol : ∃ p, member? rule "protocol" = some p ∧ p.value.literal = "tcp"
  source_eq : member? rule "source_address_prefix" = some source
  everywhere : isOpenSource source.value.literal = true

/-- The rules of a firewall: the resource itself, or the blocks in it. -/
def firewallRules (r : Resource) : List (List Pair) :=
  if r.type = "resource.azurerm_network_security_rule" then [r.attributes]
  else if r.type = "resource.azurerm_network_security_group" then
    (r.attributes.filter (·.name == "security_rule")).map (·.children)
  else []

section
variable {rule : List Pair} {source : Pair} {path : String} {e : Expr} {t : String}
  {texts : List String}

/-- The check of firewalls looks at their rules one by one. -/
theorem networkRules_eq (config : Config) (c : Context) (r : Resource) (path : String) :
    networkRules config c r path = some ((firewallRules r).flatMap (exposedRule · path)) := by
  unfold networkRules firewallRules
  split
  · next hrule =>
    rw [if_pos hrule]
    exact congrArg some (List.append_nil _).symm
  · next hgroup =>
    rw [if_neg (by rw [hgroup]; decide), if_pos hgroup, List.flatMap_map]
    rfl
  · next hrule hgroup =>
    rw [if_neg hrule, if_neg hgroup]
    rfl

/-- The texts that the check knows stand in front of the capitals. -/
theorem literal_mem_managementPorts : e.literal ∈ managementPorts ↔ e.text ∈ managementPorts := by
  have hlower (m : String) (hm : m ∈ managementPorts) : e.literal = m ↔ e.text = m := by
    have hmarks : ∀ m ∈ managementPorts, ∀ c ∈ m.toList, c.toNat < 0x41 := by
      simp [managementPorts]
    -- a number is compared as it is written, anything else in lower case
    cases e with
    | number => rfl
    | _ => exact Text.lower_eq_iff (hmarks m hm)
  constructor
  · intro h
    rwa [(hlower _ h).1 rfl]
  · intro h
    rwa [(hlower _ h).2 rfl]

/-- The check compares texts as they are written. -/
theorem any_literals (e : Expr) : (literals e).any managementPorts.contains =
    (itemTexts e).any managementPorts.contains := by
  have hitem (e : Expr) : managementPorts.contains e.literal = managementPorts.contains e.text := by
    rw [Bool.eq_iff_iff, List.contains_iff_mem, List.contains_iff_mem, literal_mem_managementPorts]
  cases e with
  | array span items => simp only [literals, itemTexts, List.any_map, Function.comp_def, hitem]
  | _ => simp only [literals, itemTexts, List.any_cons, List.any_nil, hitem]

/-- A rule that lets connections through from everywhere is reported if one of its ports has a text that
the check knows. -/
theorem exposedRule_admitted (h : AdmitsAll rule source) : exposedRule rule path =
    if (destinations rule).any managementPorts.contains
    then [Finding.of "sec_network_security_rules" (.pair source) path] else [] := by
  obtain ⟨access, haccess, hallow⟩ := h.access
  obtain ⟨protocol, hprotocol, htcp⟩ := h.protocol
  have hsource := h.source_eq
  unfold member? at haccess hprotocol hsource
  have hports : (["destination_port_range", "destination_port_ranges"].flatMap fun name =>
      (member? rule name).elim [] fun p => literals p.value).any managementPorts.contains =
        (destinations rule).any managementPorts.contains := by
    rw [destinations, List.any_flatMap, List.any_flatMap]
    refine congrArg (List.any _) (funext fun name => ?_)
    cases member? rule name with
    | none => rfl
    | some p => exact any_literals p.value
  unfold member? at hports
  simp only [exposedRule, haccess, hprotocol, hallow, htcp, hsource, hports, Option.filter_some,
    h.everywhere]
  rfl

/-- What the check finds is open. -/
theorem manages_of_mem (ht : t ∈ texts) (hknown : t ∈ managementPorts) : Manages (opened texts) := by
  simp only [managementPorts, List.mem_cons, List.not_mem_nil, or_false] at hknown
  rcases hknown with rfl | rfl | rfl
  · exact .inl ⟨_, ht, _, .one (by decide), rfl⟩
  · exact .inr ⟨_, ht, _, .one (by decide), rfl⟩
  · exact .inl ⟨_, ht, _, .all, Set.mem_Iio.2 (by omega)⟩

/-- A port of management is found unless it is in a range or has a zero in front. -/
theorem mem_managementPorts {ports : Set ℕ} (h : Denotes t.toList ports) (hmanages : Manages ports)
    (hrange : '-' ∉ t.toList) (hhead : t.toList.head? ≠ some '0') : t ∈ managementPorts := by
  generalize hcs : t.toList = cs at h
  cases h with
  | one hds =>
    rw [← hcs] at hds hmanages
    rcases hmanages with hssh | hdesktop
    · rw [eq_of_value hds hhead hssh.symm]
      decide
    · rw [eq_of_value hds hhead hdesktop.symm]
      decide
  | range => exact absurd (by simp [hcs]) hrange
  | all =>
    obtain rfl : t = "*" := String.toList_inj.1 hcs
    decide

/-- Where ports are written plainly, one of management is found if there is any. -/
theorem exists_known (hplain : ∀ t ∈ texts, IsPlain t) (h : Manages (opened texts)) :
    ∃ t ∈ texts, t ∈ managementPorts := by
  have hsome : ∃ t ∈ texts, ∃ ports, Denotes t.toList ports ∧ Manages ports := by
    rcases h with ⟨t, ht, ports, hports, hmem⟩ | ⟨t, ht, ports, hports, hmem⟩
    · exact ⟨t, ht, ports, hports, .inl hmem⟩
    · exact ⟨t, ht, ports, hports, .inr hmem⟩
  obtain ⟨t, ht, ports, hports, hmanages⟩ := hsome
  obtain ⟨ports', hports', hmissed⟩ := hplain t ht
  obtain rfl := hports.unique hports'
  obtain ⟨hrange, hhead⟩ := not_or.1 (mt hmissed (not_not_intro hmanages))
  exact ⟨t, ht, mem_managementPorts hports hmanages hrange hhead⟩

/-- A rule that lets connections through from the whole internet is reported at its source exactly if the
text of one of its ports is that of a port of management or the mark for all ports. Such a rule opens a
port of management; and a rule that opens one is reported where its ports are written plainly. -/
theorem management_ports_reported (config : Config) (c : Context) (r : Resource) (path : String) :
    networkRules config c r path = some ((firewallRules r).flatMap (exposedRule · path)) ∧
    (∃ registration ∈ checkers, registration.name = "terraform-network-security-rules" ∧
      registration.check config c (.resource r) path =
        some (evaluate "sec_network_security_rules" config.policy.network r path ++
          (firewallRules r).flatMap (exposedRule · path))) ∧
    ∀ rule ∈ firewallRules r, ∀ source, AdmitsAll rule source →
      exposedRule rule path =
        (if (destinations rule).any managementPorts.contains
          then [Finding.of "sec_network_security_rules" (.pair source) path] else []) ∧
      (exposedRule rule path ≠ [] → Manages (opened (destinations rule))) ∧
      ((∀ t ∈ destinations rule, IsPlain t) →
        (exposedRule rule path ≠ [] ↔ Manages (opened (destinations rule)))) := by
  refine ⟨networkRules_eq config c r path, ?_, fun rule _ source hadmits => ?_⟩
  · refine ⟨table "network-security-rules" "sec_network_security_rules" (·.network) networkRules, ?_,
      rfl, check_table (networkRules_eq config c r path)⟩
    simp [checkers]
  have hreported : exposedRule rule path ≠ [] ↔ ∃ t ∈ destinations rule, t ∈ managementPorts := by
    rw [exposedRule_admitted hadmits]
    simp [List.any_eq_true]
  have hopen : exposedRule rule path ≠ [] → Manages (opened (destinations rule)) := fun h => by
    obtain ⟨t, ht, hknown⟩ := hreported.1 h
    exact manages_of_mem ht hknown
  exact ⟨exposedRule_admitted hadmits, hopen,
    fun hplain => ⟨hopen, fun h => hreported.2 (exists_known hplain h)⟩⟩

end

/-- The whole internet as a source. -/
def internet : Pair :=
  ⟨.nowhere, .attr, "source_address_prefix", .string .nowhere "Internet", false, []⟩

/-- A rule that lets connections from the internet through to these ports. -/
def ruleFor (ports : String) : List Pair :=
  [⟨.nowhere, .attr, "access", .string .nowhere "Allow", false, []⟩,
    ⟨.nowhere, .attr, "protocol", .string .nowhere "Tcp", false, []⟩, internet,
    ⟨.nowhere, .attr, "destination_port_range", .string .nowhere ports, false, []⟩]

/-- A group of rules for these ports. -/
def groupFor (ports : List String) : Resource where
  span := .nowhere
  name := .string .nowhere "nsg"
  type := "resource.azurerm_network_security_group"
  attributes := ports.map fun ports =>
    ⟨.nowhere, .attr, "security_rule", .absent, false, ruleFor ports⟩
  statements := []

/-- The rule is one for everyone. -/
theorem admitsAll_ruleFor (ports : String) : AdmitsAll (ruleFor ports) internet where
  access := ⟨_, rfl, by decide +kernel⟩
  protocol := ⟨_, rfl, by decide +kernel⟩
  source_eq := rfl
  everywhere := by decide +kernel

/-- Of four rules in a group, those for a port of management and for all ports are reported, and those for
another port and for a range of others are not. -/
theorem management_ports_reported_group :
    let report := [Finding.of "sec_network_security_rules" (.pair internet) "a.tf"]
    (∀ ports ∈ ["3389", "443", "8000-8080", "*"],
      exposedRule (ruleFor ports) "a.tf" ≠ [] ↔ Manages (opened [ports])) ∧
    networkRules default default (groupFor ["3389", "443", "8000-8080", "*"]) "a.tf" =
      some (report ++ report) := by
  intro report
  obtain ⟨-, -, hrules⟩ := management_ports_reported default default
    (groupFor ["3389", "443", "8000-8080", "*"]) "a.tf"
  have hrange : Denotes ("8000".toList ++ '-' :: "8080".toList) _ :=
    .range (by decide) (by decide)
  have hothers : ¬Manages (Set.Icc 8000 8080) := by
    rintro (⟨hlow, -⟩ | ⟨hlow, -⟩)
    · exact absurd hlow (by decide)
    · exact absurd hlow (by decide)
  have hplain : ∀ ports ∈ ["3389", "443", "8000-8080", "*"], IsPlain ports := by
    simp only [List.forall_mem_cons, List.not_mem_nil, false_implies, implies_true, and_true]
    refine ⟨⟨_, .one (by decide), fun h => absurd h (by decide)⟩,
      ⟨_, .one (by decide), fun h => absurd h (by decide)⟩,
      ⟨_, hrange, fun _ => hothers⟩, ⟨_, .all, fun h => absurd h (by decide)⟩⟩
  refine ⟨fun ports hports => ?_, by decide +kernel⟩
  have hrule : ruleFor ports ∈ firewallRules (groupFor ["3389", "443", "8000-8080", "*"]) :=
    List.mem_map_of_mem hports
  exact (hrules _ hrule internet (admitsAll_ruleFor ports)).2.2 fun t ht =>
    List.mem_singleton.1 ht ▸ hplain ports hports

/-- The first range holds a port of management and the second all ports, and the third port is one of
management too; yet neither the check of firewalls nor the built-in table reports any of them. -/
theorem range_overlooked :
    let r := groupFor ["20-25", "0-65535", "022"]
    (∀ rule ∈ firewallRules r, AdmitsAll rule internet ∧
      (∀ t ∈ destinations rule, ∃ ports, Denotes t.toList ports) ∧
      Manages (opened (destinations rule))) ∧
    networkRules (.builtIn .terraform) default r "a.tf" = some [] ∧
    evaluate "sec_network_security_rules" (Config.builtIn .terraform).policy.network r "a.tf" = [] := by
  intro r
  have hfew : Denotes ("20".toList ++ '-' :: "25".toList) _ :=
    .range (by decide) (by decide)
  have hall : Denotes ("0".toList ++ '-' :: "65535".toList) _ :=
    .range (by decide) (by decide)
  have hone : Denotes "022".toList _ := .one (by decide)
  have hrule {ports : String} {denoted : Set ℕ} (hdenoted : Denotes ports.toList denoted)
      (hmem : 22 ∈ denoted) : AdmitsAll (ruleFor ports) internet ∧
        (∀ t ∈ destinations (ruleFor ports), ∃ ports, Denotes t.toList ports) ∧
        Manages (opened (destinations (ruleFor ports))) :=
    ⟨admitsAll_ruleFor ports, List.forall_mem_singleton.2 ⟨denoted, hdenoted⟩,
      .inl ⟨ports, List.mem_singleton_self ports, denoted, hdenoted, hmem⟩⟩
  refine ⟨?_, by decide +kernel, by decide +kernel⟩
  show ∀ rule ∈ [ruleFor "20-25", ruleFor "0-65535", ruleFor "022"], _
  simp only [List.forall_mem_cons, List.not_mem_nil, false_implies, implies_true, and_true]
  exact ⟨hrule hfew ⟨by decide, by decide⟩, hrule hall ⟨by decide, by decide⟩, hrule hone rfl⟩

end InfraSmells.Policy
