import JsEmitter.Proofs.KeyedHistory
import JsEmitter.Proofs.RequestCounts
import Mathlib.Logic.Function.Basic

/-!
# Requests to cold caches

From a cache that holds nothing under their keys, requests for some items are served by items among
them: each by itself, or by an earlier one with the same key and the same version. Which one that is
is decided by the keys and the versions alone, so the same items serve whatever code is generated.
The definition of a class that starts cold is put together from what serves its methods and from its
own exported members.
-/
namespace JsEmitter

open Js (Tree)
open Lowering (Context ConstructorParts)

variable {α γ κ : Type}

section Servers

variable [DecidableEq κ] (key : γ → κ) (version : γ → Version)

/-- The item that serves an item, where the result of some item may be held under its key. -/
def server (held? : Option γ) (item : γ) : γ :=
  (held?.filter (fun other => (version other).isSame (version item))).getD item

/-- The items that serve some items one after the other, from what is held under their keys. -/
def servers (held : κ → Option γ) : List γ → List γ
  | [] => []
  | item :: rest =>
    let here := server version (held (key item)) item
    here :: servers (Function.update held (key item) (some here)) rest

variable {key version} {held : κ → Option γ} {items : List γ}

/-- Items with different keys serve themselves. -/
theorem servers_eq_self (distinct : (items.map key).Nodup)
    (cold : ∀ item ∈ items, held (key item) = none) : servers key version held items = items := by
  induction items generalizing held with
  | nil => rfl
  | cons item rest ih =>
    obtain ⟨absent, distinct⟩ := List.nodup_cons.1 distinct
    have own : server version (held (key item)) item = item := by
      rw [cold item List.mem_cons_self]
      rfl
    rw [servers, own, ih distinct (fun other found => ?_)]
    have differ : key other ≠ key item := fun same => absent (same ▸ List.mem_map_of_mem found)
    rw [Function.update_of_ne differ, cold other (List.mem_cons_of_mem _ found)]

end Servers

namespace KeyedCache

variable [DecidableEq κ]

/-- The result that is held under a key, with the version it was computed for. -/
def result? (cache : KeyedCache κ α) (key : κ) : Option (Version × Tracked α) :=
  (cache.held? key).map (fun held => (held.1, held.2.tracked))

/-- A request gives what is held for its version, or else its own result, and holds what it
gave. -/
theorem request_served {ε : Type} (cache : KeyedCache κ α) (key : κ) (version : Version)
    (own : Tracked α) (supply : TokenSupply) :
    ∃ (artifact : Artifact α) (reached : KeyedCache κ α) (last : TokenSupply) (served : Version),
      (request key version (fun _ => .ok own) (cache, supply) : EStateM.Result ε _ _) =
        .ok artifact (reached, last) ∧
      (served, artifact.tracked) =
        ((cache.result? key).filter (fun held => held.1.isSame version)).getD (version, own) ∧
      reached.result? key = some (served, artifact.tracked) ∧
      ∀ other, other ≠ key → reached.result? other = cache.result? other := by
  have peeked := cache.peek?_eq key version
  cases found : cache.peek? key version with
  | some artifact =>
    obtain ⟨reached, done, -, kept, -⟩ := request_hit (ε := ε) found (fun _ => .ok own) supply
    rw [found] at peeked
    obtain ⟨⟨served, other⟩, valid, rfl⟩ := Option.map_eq_some_iff.1 peeked.symm
    obtain ⟨there, same⟩ := Option.filter_eq_some_iff.1 valid
    refine ⟨other, reached, supply, served, done, ?_, ?_, fun another _ => ?_⟩
    · simp [result?, there, Option.filter, same]
    · simp [result?, kept, there]
    · rw [result?, kept, result?]
  | none =>
    let compute : Unit → Except ε (Tracked α) := fun _ => .ok own
    have computed : compute () = .ok own := rfl
    obtain ⟨reached, done, asked, kept, -⟩ := request_computed found computed supply
    rw [found] at peeked
    refine ⟨supply.make own, reached, supply.advance, version, done, ?_, ?_,
      fun another differ => ?_⟩
    · have none := Option.map_eq_none_iff.1 peeked.symm
      cases there : cache.held? key with
      | none => simp [result?, there, TokenSupply.make, Artifact.tracked]
      | some held =>
        rw [there] at none
        have differs : held.1.isSame version = false := by simpa [Option.filter] using none
        simp [result?, there, Option.filter, differs, TokenSupply.make, Artifact.tracked]
    · simp [result?, kept]
    · rw [result?, asked.held?_of_ne differ, result?]

end KeyedCache

/-- Requests for some items are served by the results of items, from a cache that holds results of
items under their keys. -/
theorem Caches.mapM_requestKeyed {ε : Type} (sort : KeyedSort) {key : γ → sort.Key}
    {version : γ → Version} {own : γ → Tracked sort.Value} {held : sort.Key → Option γ}
    {items : List γ} {before : Caches}
    (holds : ∀ item ∈ items, (before.keyed sort).result? (key item) =
      (held (key item)).map (fun other => (version other, own other))) :
    ∃ (artifacts : List (Artifact sort.Value)) (after : Caches),
      (items.mapM (fun item => requestKeyed sort (key item) (version item)
        (fun _ => .ok (own item))) : Step ε Caches _) before = .ok artifacts after ∧
      artifacts.map Artifact.tracked = (servers key version held items).map own := by
  induction items generalizing before held with
  | nil => exact ⟨[], before, rfl, rfl⟩
  | cons item rest ih =>
    obtain ⟨artifact, reached, last, served, done, given, now, others⟩ :=
      (before.keyed sort).request_served (ε := ε) (key item) (version item) (own item)
        before.supply
    let here := server version (held (key item)) item
    have result : (served, artifact.tracked) = (version here, own here) := by
      rw [given, holds item List.mem_cons_self]
      simp only [here, server]
      cases there : held (key item) with
      | none => rfl
      | some other =>
        cases same : (version other).isSame (version item) <;> simp [Option.filter, same]
    have ran : (requestKeyed sort (key item) (version item) (fun _ => .ok (own item)) :
        Step ε Caches _) before = .ok artifact (before.withKeyed sort reached last) := by
      simp only [requestKeyed, Step.onPart, done]
    obtain ⟨artifacts, after, ranRest, same⟩ := @ih
      (Function.update held (key item) (some here)) (before.withKeyed sort reached last)
      (fun other found => by
        rw [keyed_withKeyed]
        by_cases equal : key other = key item
        · rw [equal, Function.update_self, now, result]
          rfl
        · rw [Function.update_of_ne equal, others _ equal, holds other (.tail _ found)])
    refine ⟨artifact :: artifacts, after, ?_, ?_⟩
    · rw [List.mapM_cons, Step.bind_ok _ ran, Step.bind_ok _ ranRest]
      rfl
    · rw [List.map_cons, same, (Prod.mk.inj result).2]
      rfl

/-- Nothing is held under a key whose cell is vacant. -/
theorem Caches.result?_of_vacant {caches : Caches} {sort : KeyedSort} {key : sort.Key}
    (vacant : (Cell.keyed sort key).Vacant (caches.content (.keyed sort key))) :
    (caches.keyed sort).result? key = none := by
  have none : (caches.keyed sort).table.get? key = none := vacant
  simp [KeyedCache.result?, KeyedCache.held?, KeyedCache.entry, none, CacheEntry.fresh]

/-- A definition whose cell is vacant is put together anew. -/
theorem Caches.requestFullClass_cold {key : ClassKey} {version : Version} {parts : DefinitionParts}
    {tracked : Tracked (List Tree)} {before after : Caches} {artifact : Artifact (List Tree)}
    (vacant : (Cell.definition key).Vacant (before.content (.definition key)))
    (ran : (requestFullClass key version parts (fun _ => .ok tracked) :
      Step EmitError Caches _) before = .ok artifact after) : artifact.tracked = tracked := by
  obtain ⟨outcome, -⟩ := (requestFullClass_visits before key parts tracked).of_ok ran
  have none : before.content (.definition key) = none := vacant
  rw [none] at outcome
  rw [← Except.ok.inj outcome]
  rfl

namespace Emission

variable (context : Context) (linked : LinkedClass)

/-- The methods that serve the members of a class from caches that hold none of them. -/
def servingMethods : List (Versioned MethodDef) :=
  servers (fun method => (ClassKey.ofClass context.home linked, method.value.name))
    (context.methodVersion linked) (fun _ => none) (Context.memberMethods linked)

/-- Whether caches hold nothing of the definition of a class. -/
def Cold (caches : Caches) : Prop :=
  ∀ cell ∈ definitionCells context linked, cell.Vacant (caches.content cell)

variable {context linked}

/-- Requests that start cold are served by the results of items among them, and touch their
cells. -/
theorem mapM_requestKeyed_cold (sort : KeyedSort) {key : γ → sort.Key} {version : γ → Version}
    {own : γ → Tracked sort.Value} {items : List γ} {before after : Caches}
    {artifacts : List (Artifact sort.Value)}
    (vacant : ∀ item ∈ items,
      (Cell.keyed sort (key item)).Vacant (before.content (.keyed sort (key item))))
    (ran : (items.mapM (fun item => Caches.requestKeyed sort (key item) (version item)
      (fun _ => .ok (own item))) : Step EmitError Caches _) before = .ok artifacts after) :
    artifacts.map Artifact.tracked = (servers key version (fun _ => none) items).map own ∧
      before.Touched (items.map (fun item => .keyed sort (key item))) after := by
  have touched : before.Touched (items.map (fun item => .keyed sort (key item))) after :=
    ((Comparison.account.mapM_keyed sort False.elim False.elim : Accounts _ _ _ _) before artifacts
      after ran).1.touched
  have blank : ∀ item ∈ items, (before.keyed sort).result? (key item) =
      (none : Option γ).map (fun other => (version other, own other)) :=
    fun item found => Caches.result?_of_vacant (vacant item found)
  obtain ⟨others, last, ranOther, same⟩ :=
    @Caches.mapM_requestKeyed γ EmitError sort key version own (fun _ => none) items before blank
  rw [ran] at ranOther
  cases ranOther
  exact ⟨same, touched⟩

variable {before after : Caches}

/-- The members of a class that start cold are served by its methods. -/
theorem emitMembers_cold {methods : List (Artifact Tree)}
    (cold : Cold context linked before)
    (ran : emitMembers context linked before = .ok methods after) :
    methods.map Artifact.tracked = (servingMethods context linked).map
        (fun method => context.memberMethod linked method.value) ∧
      before.Touched ((Context.memberMethods linked).map (fun method =>
        .keyed .members (.ofClass context.home linked, method.value.name))) after :=
  mapM_requestKeyed_cold .members (fun _ found => cold _
    (List.mem_append_left _ (List.mem_map_of_mem found))) ran

/-- The exported members of a class that start cold are its own: they have different keys. -/
theorem emitExportedMembers_cold {exported : List (Artifact (List Tree))}
    (vacant : ∀ member ∈ linked.exportedMembers.zipIdx,
      (Cell.keyed .exportedMembers (.ofClass context.home linked, member.2)).Vacant
        (before.content (.keyed .exportedMembers (.ofClass context.home linked, member.2))))
    (ran : emitExportedMembers context linked before = .ok exported after) :
    exported.map Artifact.tracked = linked.exportedMembers.map
        (fun member => context.exportedMember linked member.value) ∧
      before.Touched (linked.exportedMembers.zipIdx.map (fun member =>
        .keyed .exportedMembers (.ofClass context.home linked, member.2))) after := by
  have positions : (linked.exportedMembers.zipIdx.map (fun member =>
      (ClassKey.ofClass context.home linked, member.2))).Nodup := by
    refine List.Nodup.of_map Prod.snd ?_
    rw [List.map_map]
    change (linked.exportedMembers.zipIdx.map Prod.snd).Nodup
    rw [List.zipIdx_map_snd]
    exact List.nodup_range'
  obtain ⟨same, touched⟩ := mapM_requestKeyed_cold .exportedMembers vacant ran
  refine ⟨same.trans ?_, touched⟩
  rw [servers_eq_self positions (fun _ _ => rfl), ← List.zipIdx_map_fst 0 linked.exportedMembers,
    List.map_map, List.zipIdx_map_fst]
  rfl

/-- The values of artifacts with known results. -/
theorem map_value_of_tracked {artifacts : List (Artifact α)} {items : List γ}
    {own : γ → Tracked α} (same : artifacts.map Artifact.tracked = items.map own) :
    artifacts.map Artifact.value = items.map (fun item => (own item).value) := by
  have values := congrArg (List.map Tracked.value) same
  rwa [List.map_map, List.map_map] at values

/-- The exported members and the definition of a class come last, so requests for its methods and
its constructor leave them as cold as they were. -/
theorem Cold.later {middle : Caches} (cold : Cold context linked before)
    (touchedMethods : before.Touched ((Context.memberMethods linked).map (fun method =>
      .keyed .members (.ofClass context.home linked, method.value.name))) middle)
    (touchedCtor : middle.Touched [.keyed .constructors (.ofClass context.home linked)] after) :
    ∀ cell ∈ linked.exportedMembers.zipIdx.map (fun member =>
      Cell.keyed .exportedMembers (.ofClass context.home linked, member.2)) ++
        [.definition (.ofClass context.home linked)], cell.Vacant (after.content cell) := by
  intro cell found
  have among : cell ∈ definitionCells context linked :=
    List.mem_append_right _ (List.mem_append_right _ (List.mem_cons_of_mem _ found))
  have others : cell ∉ (Context.memberMethods linked).map (fun method => Cell.keyed .members
      (.ofClass context.home linked, method.value.name)) ∧
      cell ≠ .keyed .constructors (.ofClass context.home linked) := by
    rcases List.mem_append.1 found with exported | definition
    · obtain ⟨member, -, rfl⟩ := List.mem_map.1 exported
      simp
    · rw [List.mem_singleton.1 definition]
      simp
  rw [touchedCtor.others cell (by simpa using others.2), touchedMethods.others cell others.1]
  exact cold cell among

/-- A definition that starts cold is put together from what serves the methods of the class and from
its own exported members. -/
theorem emitDefinition_cold (plain : context.bridgedMethods linked = [])
    {given : Tracked (List Tree)} (cold : Cold context linked before)
    (ran : emitDefinition context linked before = .ok given after) :
    ∃ ctor : ConstructorParts, given.value = (context.fullClass linked ctor
      ((servingMethods context linked).map (fun method =>
        (context.memberMethod linked method.value).value))
      (linked.exportedMembers.map (fun member =>
        (context.exportedMember linked member.value).value))).value := by
  obtain ⟨methods, afterMethods, ranMethods, ran⟩ := Step.bind_eq_ok ran
  obtain ⟨bridges, afterBridges, ranBridges, ran⟩ := Step.bind_eq_ok ran
  obtain ⟨ctor, afterCtor, ranCtor, ran⟩ := Step.bind_eq_ok ran
  obtain ⟨exported, afterExported, ranExported, ran⟩ := Step.bind_eq_ok ran
  obtain ⟨full, last, ranFull, done⟩ := Step.bind_eq_ok ran
  cases done
  unfold emitBridges at ranBridges
  rw [plain] at ranBridges
  cases ranBridges
  obtain ⟨sameMethods, touchedMethods⟩ := emitMembers_cold cold ranMethods
  have touchedCtor : afterMethods.Touched _ afterCtor :=
    (Accounts.keyed .constructors _ (context.constructorParts linked) afterMethods ctor afterCtor
      ranCtor).1.touched
  have later := cold.later touchedMethods touchedCtor
  obtain ⟨sameExported, touchedExported⟩ := emitExportedMembers_cold
    (fun member found => later _ (List.mem_append_left _ (List.mem_map_of_mem found))) ranExported
  have definition : (Cell.definition (.ofClass context.home linked)).Vacant
      (afterExported.content (.definition (.ofClass context.home linked))) := by
    rw [touchedExported.others _ (by simp)]
    exact later _ (List.mem_append_right _ (List.mem_singleton_self _))
  have whole := congrArg Tracked.value (Caches.requestFullClass_cold definition ranFull)
  rw [List.reverse_nil, List.append_nil, map_value_of_tracked sameMethods,
    map_value_of_tracked sameExported] at whole
  exact ⟨ctor.value, whole⟩

end Emission

end JsEmitter
