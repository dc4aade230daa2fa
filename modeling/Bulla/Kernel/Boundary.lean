import Bulla.Kernel.Registry
import Bulla.Rust.BTreeMap

/-!
# Boundary closure

A boundary is a list of declarations of platform operations.  It is closed by comparing each with
its registry entry and collecting the names.  What is accepted, and the inventory of names, only
depend on which declarations there are.
-/

namespace Bulla.Kernel

open Rust Outcome

structure BoundaryDeclaration where
  name : String
  signature : String
  contract : String
  domain : PlatformDomain
  capability : Option CapabilityKind
  rights : Rights
  symbol : String
  sourceContractSha256 : Option String
  sourceReachable : Bool
  deriving DecidableEq, Repr

inductive ClosureError where
  | registry (error : RegistryError)
  | duplicateDeclaration
  | missingReachableEntry
  | unreachableFrozenEntry
  deriving DecidableEq, Repr

structure BoundaryInventory where
  names : List String
  deriving DecidableEq, Repr

/-- The comparison of a declaration with its registry entry. -/
def compareEntry (registered : PlatformOperation) (declaration : BoundaryDeclaration) :
    Outcome ClosureError Unit := do
  rejectIf (registered.signature ≠ declaration.signature) (.registry .signatureDrift)
  rejectIf (registered.contract ≠ declaration.contract) (.registry .contractDrift)
  rejectIf (registered.domain ≠ declaration.domain) (.registry .domainDrift)
  rejectIf (registered.capability ≠ declaration.capability) (.registry .capabilityDrift)
  rejectIf (registered.rights ≠ declaration.rights) (.registry .rightsDrift)
  rejectIf (registered.symbol ≠ declaration.symbol) (.registry .symbolDrift)
  rejectIf (registered.sourceContractSha256 ≠ declaration.sourceContractSha256)
    (.registry .sourceContractDrift)
  rejectIf (registered.sourceReachable ≠ declaration.sourceReachable)
    (.registry .reachabilityDrift)

/-- One round of the loop of `close`. -/
def visitDeclaration (names : BTreeSet String) (declaration : BoundaryDeclaration) :
    Outcome ClosureError (BTreeSet String) := do
  rejectIf (declaration.name ∈ names) .duplicateDeclaration
  let names := names.insert declaration.name
  let registered ← (lookup declaration.name).mapErr .registry
  compareEntry registered declaration
  return names

def BoundaryInventory.close (declarations : List BoundaryDeclaration)
    (requireCompleteProfile : Bool) : Outcome ClosureError BoundaryInventory := do
  let names ← declarations.foldlM visitDeclaration ∅
  rejectIf (declarations = []) .missingReachableEntry
  rejectIf (requireCompleteProfile && x86_64PcUefiSmpV1.any fun entry =>
    entry.sourceReachable && !names.contains entry.name) .unreachableFrozenEntry
  return ⟨names.toList⟩

/-- The declaration that an entry admits. -/
def PlatformOperation.declaration (entry : PlatformOperation) : BoundaryDeclaration where
  name := entry.name
  signature := entry.signature
  contract := entry.contract
  domain := entry.domain
  capability := entry.capability
  rights := entry.rights
  symbol := entry.symbol
  sourceContractSha256 := entry.sourceContractSha256
  sourceReachable := entry.sourceReachable

/-- The boundaries that agree with the registry. -/
structure Conforming (declarations : List BoundaryDeclaration) (complete : Bool) : Prop where
  nonempty : declarations ≠ []
  distinct : (declarations.map (·.name)).Nodup
  registered : ∀ declaration ∈ declarations,
    ∃ entry ∈ x86_64PcUefiSmpV1, entry.declaration = declaration
  covered : complete = true → ∀ entry ∈ x86_64PcUefiSmpV1, entry.sourceReachable = true →
    ∃ declaration ∈ declarations, declaration.name = entry.name

section Closing

variable {declarations : List BoundaryDeclaration} {complete : Bool}

theorem compareEntry_eq_ok {entry : PlatformOperation} {declaration : BoundaryDeclaration}
    {value : Unit} (same_name : entry.name = declaration.name) :
    compareEntry entry declaration = .ok value ↔ entry.declaration = declaration := by
  cases declaration
  simp only [compareEntry, bind_eq_ok, rejectIf_eq_ok, exists_const, ne_eq, not_not,
    PlatformOperation.declaration, BoundaryDeclaration.mk.injEq, same_name, true_and]

theorem visitDeclaration_eq_ok {names result : BTreeSet String}
    {declaration : BoundaryDeclaration} :
    visitDeclaration names declaration = .ok result ↔
      ((∃ entry ∈ x86_64PcUefiSmpV1, entry.declaration = declaration) ∧ declaration.name ∉ names) ∧
        names.insert declaration.name = result := by
  simp only [visitDeclaration, bind_eq_ok, rejectIf_eq_ok, exists_const, mapErr_eq_ok, lookup_eq_ok,
    pure_eq, ok.injEq]
  constructor
  · rintro ⟨fresh, entry, ⟨member, same_name⟩, _, same, result_eq⟩
    exact ⟨⟨⟨entry, member, (compareEntry_eq_ok same_name).mp same⟩, fresh⟩, result_eq⟩
  · rintro ⟨⟨⟨entry, member, rfl⟩, fresh⟩, result_eq⟩
    exact ⟨fresh, entry, ⟨member, rfl⟩, (), (compareEntry_eq_ok rfl).mpr rfl, result_eq⟩

/-- The set of the declared names. -/
def declaredNames (declarations : List BoundaryDeclaration) : BTreeSet String :=
  declarations.foldl (fun names declaration => names.insert declaration.name) ∅

theorem mem_declaredNames {name : String} :
    name ∈ declaredNames declarations ↔ name ∈ declarations.map (·.name) := by
  have collected (names : BTreeSet String) :
      name ∈ declarations.foldl (fun names declaration => names.insert declaration.name) names ↔
        name ∈ names ∨ name ∈ declarations.map (·.name) := by
    induction declarations generalizing names with
    | nil => simp
    | cons declaration declarations induction =>
        rw [List.foldl_cons, induction, Std.ExtTreeSet.mem_insert,
          Std.LawfulEqCmp.compare_eq_iff_eq, List.map_cons, List.mem_cons, eq_comm (a := name)]
        tauto
  rw [declaredNames, collected]
  simp

theorem foldlM_visitDeclaration {names : BTreeSet String} :
    declarations.foldlM visitDeclaration ∅ = .ok names ↔
      ((declarations.map (·.name)).Nodup ∧
        ∀ declaration ∈ declarations,
          ∃ entry ∈ x86_64PcUefiSmpV1, entry.declaration = declaration) ∧
        declaredNames declarations = names := by
  rw [foldlM_eq_ok_iff_distinct (·.name) (fun names name => name ∉ names)
    (fun _ _ _ => visitDeclaration_eq_ok)]
  · simp [declaredNames]
  · intro names declaration other _
    rw [Std.ExtTreeSet.mem_insert, Std.LawfulEqCmp.compare_eq_iff_eq]
    tauto

/-- The check for a complete profile. -/
theorem covered_iff :
    ¬(complete && x86_64PcUefiSmpV1.any fun entry =>
        entry.sourceReachable && !(declaredNames declarations).contains entry.name) = true ↔
      (complete = true → ∀ entry ∈ x86_64PcUefiSmpV1, entry.sourceReachable = true →
        ∃ declaration ∈ declarations, declaration.name = entry.name) := by
  simp only [Bool.and_eq_true, List.any_eq_true, Bool.not_eq_true', not_and, not_exists,
    Bool.not_eq_false, Std.ExtTreeSet.contains_iff_mem, mem_declaredNames, List.mem_map]

theorem close_eq_ok {inventory : BoundaryInventory} :
    BoundaryInventory.close declarations complete = .ok inventory ↔
      Conforming declarations complete ∧ ⟨(declaredNames declarations).toList⟩ = inventory := by
  simp only [BoundaryInventory.close, bind_eq_ok, foldlM_visitDeclaration, rejectIf_eq_ok,
    exists_const, pure_eq, ok.injEq]
  constructor
  · rintro ⟨names, ⟨⟨distinct, registered⟩, rfl⟩, nonempty, covered, inventory_eq⟩
    exact ⟨⟨nonempty, distinct, registered, covered_iff.mp covered⟩, inventory_eq⟩
  · rintro ⟨conforming, inventory_eq⟩
    exact ⟨_, ⟨⟨conforming.distinct, conforming.registered⟩, rfl⟩, conforming.nonempty,
      covered_iff.mpr conforming.covered, inventory_eq⟩

/-- The inventory lists the declared names in order. -/
theorem toList_declaredNames (distinct : (declarations.map (·.name)).Nodup) :
    (declaredNames declarations).toList.Perm (declarations.map (·.name)) ∧
      (declaredNames declarations).toList.Pairwise (· < ·) := by
  refine ⟨BTreeSet.toList_perm distinct fun _ => mem_declaredNames, ?_⟩
  apply (declaredNames declarations).ordered_toList.imp
  intro left right below
  exact compareOfLessAndEq_eq_lt.mp below

section Order

variable {other : List BoundaryDeclaration} (reordered : other.Perm declarations)

include reordered

theorem declaredNames_perm : declaredNames other = declaredNames declarations := by
  apply Std.ExtTreeSet.ext_mem
  intro name
  rw [mem_declaredNames, mem_declaredNames, (reordered.map _).mem_iff]

theorem Conforming.perm (conforming : Conforming declarations complete) :
    Conforming other complete where
  nonempty := by
    rintro rfl
    exact conforming.nonempty (List.nil_perm.mp reordered)
  distinct := (reordered.map _).nodup_iff.mpr conforming.distinct
  registered declaration member := conforming.registered declaration (reordered.mem_iff.mp member)
  covered required entry member reachable := by
    obtain ⟨declaration, declared, same⟩ := conforming.covered required entry member reachable
    exact ⟨declaration, reordered.mem_iff.mpr declared, same⟩

end Order

end Closing

/-- The declarations of the whole registry are accepted. -/
theorem conforming_registry (complete : Bool) :
    Conforming (x86_64PcUefiSmpV1.map PlatformOperation.declaration) complete where
  nonempty := by simp [x86_64PcUefiSmpV1]
  distinct := by
    rw [List.map_map]
    exact nodup_names
  registered declaration member := List.mem_map.mp member
  covered _ entry member _ := ⟨entry.declaration, List.mem_map_of_mem member, rfl⟩

/-- A boundary is closed exactly if it conforms to the registry.  Its inventory is the sorted list
of the declared names, and neither depends on the order of the declarations. -/
theorem close_accepts_conforming (declarations : List BoundaryDeclaration) (complete : Bool) :
    ((∃ inventory, BoundaryInventory.close declarations complete = .ok inventory) ↔
      Conforming declarations complete) ∧
    (∀ inventory, BoundaryInventory.close declarations complete = .ok inventory →
      inventory.names.Perm (declarations.map (·.name)) ∧ inventory.names.Pairwise (· < ·)) ∧
    ∀ other inventory, other.Perm declarations →
      (BoundaryInventory.close other complete = .ok inventory ↔
        BoundaryInventory.close declarations complete = .ok inventory) := by
  simp only [close_eq_ok]
  refine ⟨by simp, ?_, ?_⟩
  · rintro _ ⟨conforming, rfl⟩
    exact toList_declaredNames conforming.distinct
  · intro other inventory reordered
    rw [declaredNames_perm reordered]
    exact and_congr_left fun _ => ⟨.perm reordered.symm, .perm reordered⟩

end Bulla.Kernel
