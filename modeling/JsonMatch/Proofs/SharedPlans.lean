import JsonMatch.Proofs.Workspaces

/-!
# Plans that compilers share

After any operations the store of a workspace has answered the requests for
plans that they made, in their order.  So a plan was built once and by the
compiler that was first asked for it, wherever it is kept, and every matcher has
its own dispatch table.
-/

namespace JsonMatch

namespace Workspace

variable {m : Type → Type} [Monad m] {ρ ε σ : Type}

/-- What holds of a workspace in which some requests were made and some
validators went away. -/
structure Sound (workspace : Workspace m ρ σ) (catalogue : Catalogue m)
    (requests : List (Request m)) (gone : List Identity) : Prop where
  orderly : workspace.Orderly
  answered : workspace.store.HasAnswered catalogue requests
  retired : ∀ validator, workspace.store.retired validator = true →
    validator ∈ gone
  inUse : ∀ matcher ∈ workspace.matchers, matcher.InUse catalogue

namespace Sound

variable {workspace : Workspace m ρ σ} {catalogue : Catalogue m}
variable {asked later : List (Request m)} {gone lost : List Identity}

theorem start (catalogue : Catalogue m) (world : σ) :
    ({ world } : Workspace m ρ σ).Sound catalogue [] [] where
  orderly := .start world
  answered := .start catalogue
  retired := nofun
  inUse := nofun

theorem change (sound : workspace.Sound catalogue asked gone)
    {operation : Operation m ρ} (brings : operation.InUse catalogue)
    {changed : Workspace m ρ σ}
    (change : workspace.Change operation later lost changed) :
    changed.Sound catalogue (asked ++ later) (gone ++ lost) := by
  obtain ⟨store, left, slot, plans, built, retired⟩ := change.exists_store
  obtain ⟨requested, inUse⟩ := change.inUse brings sound.inUse
  constructor
  case orderly => exact sound.orderly.change change
  case answered =>
    rw [left]
    have before : store.HasAnswered catalogue asked := by
      apply sound.answered.of_eq slot plans built
      intro validator dead
      exact (retired validator).mpr (.inl dead)
    exact before.answerAll requested
  case retired =>
    intro validator dead
    rw [left, Store.retired_answerAll] at dead
    rcases (retired validator).mp dead with before | now
    · exact List.mem_append_left _ (sound.retired validator before)
    · exact List.mem_append_right _ now
  case inUse => exact inUse

variable [Runs m ε σ] [Rescue m]

theorem perform (sound : workspace.Sound catalogue asked gone)
    {operations : List (Operation m ρ)}
    (brings : ∀ operation ∈ operations, operation.InUse catalogue) :
    (operations.foldl
        (fun workspace operation => (workspace.perform operation).2)
        workspace).Sound catalogue
      (asked ++ workspace.requestsFrom operations)
      (gone ++ operations.flatMap Operation.gone) := by
  induction operations generalizing workspace asked gone with
  | nil =>
      rw [requestsFrom, List.flatMap_nil, List.append_nil, List.append_nil]
      exact sound
  | cons operation operations induction =>
      have one := sound.change (brings operation List.mem_cons_self)
        (change_perform sound.orderly operation)
      have rest := induction one fun other member =>
        brings other (List.mem_cons_of_mem _ member)
      rw [List.append_assoc, List.append_assoc] at rest
      exact rest

end Sound

/-- After any operations, a compiler keeps plans only that it makes itself; a
slotted validator has the plan of the first compiler that was asked for one,
built once; any other validator that stays has, with each compiler that was
asked, the plan of that compiler, built once; and a matcher finds the dispatch
table of its own clauses, which it shares with its copies only. -/
theorem after_answers [Runs m ε σ] [Rescue m] (catalogue : Catalogue m)
    (world : σ) (operations : List (Operation m ρ))
    (brings : ∀ operation ∈ operations, operation.InUse catalogue) :
    let workspace := after world operations
    let requests := requestsFrom { world } operations
    (∀ holder kept plan, (workspace.store.plans holder).plan kept = some plan →
      ∃ compiler validator, catalogue.HasCompiler compiler ∧
        catalogue.HasValidator validator ∧ validator.slotted = false ∧
        compiler.identity = holder ∧ validator.identity = kept ∧
        plan.content = compiler.planFor validator) ∧
      (∀ validator, catalogue.HasValidator validator →
        validator.slotted = true →
        BuiltOnce
          ((requests.find? (·.isFor validator)).map
            (·.compiler.planFor validator))
          (workspace.store.slot validator.identity)
          (workspace.store.built.countP (·.isFor validator))) ∧
      (∀ compiler, catalogue.HasCompiler compiler →
        ∀ validator, catalogue.HasValidator validator →
          validator.slotted = false →
        .retire validator.identity ∉ operations →
        BuiltOnce
          ((requests.find? (·.isOf compiler validator)).map fun _ =>
            compiler.planFor validator)
          ((workspace.store.plans compiler.identity).plan validator.identity)
          (workspace.store.built.countP (·.isOf compiler validator))) ∧
      ∀ matcher ∈ workspace.matchers,
        (∀ found, workspace.store.table matcher.cell = some found →
          found = DispatchTable.build? matcher.clauses.toList matcher.compiler
            matcher.config) ∧
        (Engine.runIn matcher.dispatchTable workspace.toMachine).1 =
          .ok (DispatchTable.build? matcher.clauses.toList matcher.compiler
            matcher.config) ∧
        ∀ other ∈ workspace.matchers, matcher.cell = other.cell →
          matcher = other := by
  intro workspace requests
  have sound := (Sound.start catalogue world).perform brings
  refine ⟨sound.answered.tables, sound.answered.slotted, ?_, ?_⟩
  · intro compiler compilerHas validator validatorHas unslotted stays
    apply sound.answered.unslotted compiler compilerHas
      validator validatorHas unslotted
    apply Bool.eq_false_iff.mpr
    intro dead
    have gone := sound.retired validator.identity dead
    obtain ⟨operation, performed, goes⟩ := List.mem_flatMap.mp gone
    cases operation with
    | retire other =>
        obtain rfl := List.mem_singleton.mp goes
        exact stays performed
    | _ => cases goes
  · intro matcher member
    have orderly : workspace.Orderly := sound.orderly
    refine ⟨orderly.tables.own matcher member _ rfl, ?_, ?_⟩
    · rw [Matcher.runIn_dispatchTable, orderly.lookIn_eq member]
      rfl
    · intro other otherMember same
      exact orderly.tables.apart matcher member other otherMember _ rfl
        (congrArg some same.symm)

/-- A schema that is compiled without adapters first, and later tried with the
built-in ones, and a validator that two compilers compile. -/
theorem after_answers_shared :
    let Call := Callback String Nat
    let schema : Validator Call := .ofSchema 1 (.primitive .string)
    let counting : Validator Call := .ofFunction 2 fun value => do
      modifyThe Nat (· + 1)
      return .ready (.success value)
    let bare : Compiler Call := ⟨7, []⟩
    let handler : Handler Call Json := ⟨false, fun _ _ => throw "raised"⟩
    let operations : List (Operation Call Json) :=
      [.compile bare schema, .compile bare counting, .compile .shared counting,
        .create {} .shared, .revise 0 (.clause schema handler),
        .revise 1 (.clause counting handler), .copy 2,
        .execute 3 .refuse (.int 1),
        .execute 2 .refuse (.int 1), .diagnose 1 .await .inOrder .null]
    let workspace := after 0 operations
    (workspace.store.slot 1).map Plan.content = some ("generic", .generic) ∧
      workspace.store.built.countP (·.isFor schema) = 1 ∧
      workspace.store.built.countP (·.isOf .shared counting) = 1 ∧
      workspace.store.built.countP (·.isOf bare counting) = 1 ∧
      ∀ matcher ∈ workspace.matchers,
        (Engine.runIn matcher.dispatchTable workspace.toMachine).1 =
          .ok (DispatchTable.build? matcher.clauses.toList matcher.compiler
            matcher.config) := by
  intro Call schema counting bare handler operations
  let catalogue : Catalogue Call :=
    { compiler? := fun identity =>
        if identity = 0 then some .shared
        else if identity = 7 then some bare else none
      validator? := fun identity =>
        if identity = 1 then some schema else if identity = 2 then some counting
        else none }
  have hasSchema : catalogue.HasValidator schema := rfl
  have hasCounting : catalogue.HasValidator counting := rfl
  have hasBare : catalogue.HasCompiler bare := rfl
  have hasShared : catalogue.HasCompiler .shared := rfl
  have brings : ∀ operation ∈ operations, operation.InUse catalogue := by
    simp only [operations, List.forall_mem_cons]
    exact ⟨⟨hasBare, hasSchema⟩, ⟨hasBare, hasCounting⟩,
      ⟨hasShared, hasCounting⟩,
      hasShared, .ofClause hasSchema, .ofClause hasCounting,
      trivial, trivial, trivial, trivial, nofun⟩
  obtain ⟨_, slotted, unslotted, tables⟩ :=
    after_answers catalogue 0 operations brings
  have stays : .retire counting.identity ∉ operations := by simp [operations]
  have first := slotted schema hasSchema rfl
  have byShared := unslotted .shared hasShared counting hasCounting rfl stays
  have byBare := unslotted bare hasBare counting hasCounting rfl stays
  have asked : ∃ later, requestsFrom { world := 0 } operations =
      ⟨bare, schema⟩ :: ⟨bare, counting⟩ :: ⟨.shared, counting⟩ :: later :=
        ⟨_, rfl⟩
  obtain ⟨later, asked⟩ := asked
  rw [asked] at first byShared byBare
  generalize after 0 operations = workspace at first byShared byBare tables ⊢
  exact ⟨first.content, first.builds, byShared.builds, byBare.builds,
    fun matcher member => (tables matcher member).2.1⟩

end Workspace

end JsonMatch
