import InfraSmells.Policy.Checkers
import InfraSmells.Proofs.Checker.Declared

/-!
# The policy checkers keep to their codes

A table of rules reports under the one code of its checker (`declared_evaluate`), and so does what a
checker says of single resources besides its table. `Policy.keepsToCodes` puts this together for all
checkers that are registered.
-/

namespace InfraSmells.Policy

variable {config : Config} {c : Context} {e : Element} {r : Resource} {code path : String}

/-! ## Tables of rules -/

/-- What a rule reports about the existence of its attribute has the code of its table. -/
theorem declared_existence (rule : PolicyRule) :
    AllDeclared [code] path (existence code path r rule) := by
  unfold existence
  split
  · simp
  · split <;> simp

/-- What a table of rules reports has its code. -/
theorem declared_evaluate (rules : List PolicyRule) :
    AllDeclared [code] path (evaluate code rules r path) := by
  simp only [evaluate, allDeclared_append, allDeclared_flatMap, allDeclared_map]
  exact ⟨fun rule _ => declared_existence rule, fun x _ => by simp⟩

/-- A missing companion is reported under the given code. -/
theorem declared_missingCompanion (type attr : String) :
    Verdict.Declared [code] path (missingCompanion c code r path type attr) := by
  unfold missingCompanion
  split
  · simp
  · split
    · simp
    · split <;> simp

/-- A flag of a database is reported under the given code. -/
theorem declared_databaseFlag (flag : DatabaseFlag) :
    AllDeclared [code] path (databaseFlag code r path flag) := by
  unfold databaseFlag
  simp only [allDeclared_ite]
  refine ⟨fun _ => by simp, fun _ f hf => ?_⟩
  obtain ⟨block, -, hf⟩ := List.exists_of_findSome?_eq_some (Option.mem_toList.1 hf)
  split at hf
  · obtain ⟨-, hf⟩ := Option.ite_none_right_eq_some.1 hf
    simp [← Option.some.inj hf]
  · obtain ⟨-, hf⟩ := Option.ite_none_right_eq_some.1 hf
    simp [← Option.some.inj hf]

/-! ## Single resources -/

theorem declared_authentication :
    Verdict.Declared ["sec_authentication"] path (authentication config c r path) := by
  unfold authentication
  dsimp only
  split
  all_goals
    refine Verdict.Declared.bind ?_ fun special hspecial => by
      simpa [authenticationCode] using hspecial
  · exact Verdict.declared_some.2 (declared_databaseFlag _)
  · exact declared_missingCompanion _ _
  · simp

theorem declared_keyManagement :
    Verdict.Declared ["sec_key_management"] path (keyManagement config c r path) := by
  unfold keyManagement
  dsimp only
  split
  all_goals
    refine Verdict.Declared.bind ?_ fun special hspecial => by simpa using hspecial
  · exact declared_missingCompanion _ _
  · simp

theorem declared_naming : Verdict.Declared ["sec_naming"] path (naming config c r path) := by
  unfold naming
  dsimp only
  split
  · simp
  · split
    · simp
    · split <;> simp
  · simp
  · simp

/-- An exposed rule of a firewall is reported under the code of networks. -/
theorem declared_exposedRule (attributes : List Pair) :
    AllDeclared ["sec_network_security_rules"] path (exposedRule attributes path) := by
  unfold exposedRule
  dsimp only
  split
  · split
    · simp
    · split <;> simp
  · simp

theorem declared_networkRules :
    Verdict.Declared ["sec_network_security_rules"] path (networkRules config c r path) := by
  unfold networkRules
  split
  · exact Verdict.declared_some.2 (declared_exposedRule _)
  · simpa using fun (rule : Pair) _ => declared_exposedRule rule.children
  · simp

theorem declared_permissions :
    AllDeclared ["sec_permission_iam_policies"] path (permissions config c r path) := by
  simp [permissions]

theorem declared_replication :
    Verdict.Declared ["sec_replication"] path (replication config c r path) := by
  unfold replication
  split
  · exact declared_missingCompanion _ _
  · simp

/-! ## Logging -/

/-- A missing attribute is reported under the code of logging. -/
theorem declared_lacksAttribute (name : String) :
    (lacksAttribute r path name).Declared ["sec_logging"] path := by
  simp [lacksAttribute, loggingCode]

theorem declared_logTypes (name : String) (all : Bool) (wanted : List String) :
    AllDeclared ["sec_logging"] path (logTypes r path name all wanted) := by
  unfold logTypes
  split <;> simp [declared_lacksAttribute, loggingCode]

theorem declared_brokerLogs : AllDeclared ["sec_logging"] path (brokerLogs r path) := by
  simp [brokerLogs, declared_lacksAttribute, loggingCode]

theorem declared_storageContainer :
    AllDeclared ["sec_logging"] path (storageContainer c r path) := by
  simp [storageContainer, loggingCode]

theorem declared_containerInsights :
    AllDeclared ["sec_logging"] path (containerInsights r path) := by
  unfold containerInsights
  dsimp only
  split
  · simp [loggingCode]
  · split <;> simp [declared_lacksAttribute, loggingCode]

theorem declared_loggingFlag : AllDeclared ["sec_logging"] path (loggingFlag r path) := by
  simp [loggingFlag, loggingCode]

theorem declared_logResource :
    Verdict.Declared ["sec_logging"] path (logResource config c r path) := by
  unfold logResource
  split
  all_goals
    first
    | exact declared_missingCompanion _ _
    | refine Verdict.declared_some.2 ?_
  · exact declared_logTypes _ _ _
  · exact declared_brokerLogs
  · exact declared_logTypes _ _ _
  · exact declared_logTypes _ _ _
  · exact declared_logTypes _ _ _
  · exact declared_loggingFlag
  · exact allDeclared_flatMap.2 fun flag _ => declared_databaseFlag flag
  · exact declared_storageContainer
  · exact declared_containerInsights
  · exact allDeclared_nil

theorem declared_logAttribute (x : Pair × String) :
    AllDeclared ["sec_logging"] path (logAttribute c r path x) := by
  unfold logAttribute
  dsimp only
  split
  · simp
  · split
    · split
      · simp [loggingCode]
      · simp [loggingCode]
    · split <;> simp [loggingCode]

theorem declared_logging : Verdict.Declared ["sec_logging"] path (logging config c r path) := by
  refine Verdict.Declared.bind declared_logResource fun special hspecial => ?_
  rw [Verdict.declared_pure, allDeclared_append, allDeclared_flatMap]
  exact ⟨hspecial, fun x _ => declared_logAttribute x⟩

/-! ## Access -/

theorem declared_openMethod : AllDeclared ["sec_access_control"] path (openMethod r path) := by
  unfold openMethod
  dsimp only
  split
  · simp [accessCode]
  · split
    · split <;> simp [accessCode]
    · simp
  · simp

theorem declared_openRepository :
    AllDeclared ["sec_access_control"] path (openRepository r path) := by
  unfold openRepository
  split <;> simp [accessCode]

theorem declared_accessControl :
    AllDeclared ["sec_access_control"] path (accessControl config c e path) := by
  unfold accessControl
  split
  · simp only [allDeclared_append, allDeclared_map]
    refine ⟨⟨declared_evaluate _, ?_⟩, fun x _ => by simp [accessCode]⟩
    split
    · exact declared_openMethod
    · exact declared_openRepository
    · simp
  · simp

theorem declared_statementFindings (statement : Pair) :
    AllDeclared ["sec_sensitive_iam_action"] path (statementFindings path statement) := by
  simp [statementFindings, sensitiveCode]

theorem declared_sensitiveAction :
    AllDeclared ["sec_sensitive_iam_action"] path (sensitiveAction c e path) := by
  unfold sensitiveAction
  split
  · simp only [allDeclared_ite, allDeclared_flatMap, allDeclared_map, allDeclared_nil]
    exact ⟨fun _ statement _ => declared_statementFindings statement,
      fun _ => ⟨fun _ p _ => by simp [sensitiveCode], fun _ => trivial⟩⟩
  · simp

theorem declared_attachedResource :
    AllDeclared ["sec_attached_resource"] path (attachedResource config c e path) := by
  unfold attachedResource
  split <;> simp

/-! ## All checkers -/

/-- A table keeps to its code if what its checker says besides does. -/
theorem keepsToCodes_table {name : String} {rules : PolicyConfig → List PolicyRule}
    {extra : ResourceCheck}
    (h : ∀ config c r path, Verdict.Declared [code] path (extra config c r path)) :
    (table name code rules extra).KeepsToCodes := by
  intro config c e path
  unfold table register tableChecker
  dsimp only
  split
  · next r =>
    refine Verdict.Declared.bind (h config c r path) fun more hmore => ?_
    rw [Verdict.declared_some, allDeclared_append]
    exact ⟨declared_evaluate _, hmore⟩
  · simp

/-- A table with nothing besides it keeps to its code. -/
theorem keepsToCodes_plainTable {name : String} {rules : PolicyConfig → List PolicyRule} :
    (table name code rules).KeepsToCodes :=
  keepsToCodes_table fun _ _ _ _ => Verdict.declared_some.2 allDeclared_nil

/-- A registration that is no table keeps to its code if all that its check finds does. -/
theorem keepsToCodes_register {name : String}
    {check : Config → Context → Element → String → List Finding}
    (h : ∀ config c e path, AllDeclared [code] path (check config c e path)) :
    (register name code fun config c e path => some (check config c e path)).KeepsToCodes := by
  intro config c e path
  exact Verdict.declared_some.2 (h config c e path)

/-- Every checker of policies keeps to its code. -/
theorem keepsToCodes : ∀ r ∈ checkers, r.KeepsToCodes := by
  simp only [checkers, List.forall_mem_cons, List.not_mem_nil, false_implies, implies_true,
    and_true]
  refine ⟨keepsToCodes_plainTable, keepsToCodes_plainTable, keepsToCodes_plainTable,
    keepsToCodes_plainTable, keepsToCodes_plainTable, keepsToCodes_plainTable,
    keepsToCodes_plainTable, keepsToCodes_plainTable, ?_, ?_, ?_, ?_, ?_, ?_,
    keepsToCodes_plainTable, keepsToCodes_plainTable, ?_, ?_, ?_, ?_⟩
  · exact keepsToCodes_table fun _ _ _ _ => declared_authentication
  · exact keepsToCodes_table fun _ _ _ _ => declared_keyManagement
  · exact keepsToCodes_table fun _ _ _ _ => declared_naming
  · exact keepsToCodes_table fun _ _ _ _ => declared_networkRules
  · exact keepsToCodes_table fun _ _ _ _ => Verdict.declared_some.2 declared_permissions
  · exact keepsToCodes_table fun _ _ _ _ => declared_replication
  · exact keepsToCodes_table fun _ _ _ _ => declared_logging
  · exact keepsToCodes_register fun _ _ _ _ => declared_accessControl
  · exact keepsToCodes_register fun _ _ _ _ => declared_sensitiveAction
  · exact keepsToCodes_register fun _ _ _ _ => declared_attachedResource

end InfraSmells.Policy
