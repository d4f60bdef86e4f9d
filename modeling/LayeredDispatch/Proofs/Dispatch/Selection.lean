import LayeredDispatch.Dispatcher.Standard

/-! Which kernel of the standard dispatcher handles a call. The choice depends on the name of the
operator and on the dispatch set alone; the main statement writes it out as a chain of conditions,
one for each hook that has kernels.
-/

namespace LayeredDispatch
namespace Dispatcher

/-- The base kernel of an operator. -/
def baseKernel? : (name : String) → Option Kernel
  | "add" => some (Base.binary "Add" (· + ·))
  | "mul" => some (Base.binary "Mul" (· * ·))
  | "neg" => some Base.neg
  | "sum" => some Base.sum
  | "add_n" => some Base.addAll
  | "unsqueeze" => some Base.unsqueeze
  | "zeros" => some Base.zeros
  | "rand" => some Base.rand
  | "add_" => some Base.addInPlace
  | "resize_" => some Base.resizeInPlace
  | _ => none

/-- The rule of batching layers for an operator, if only one that refuses. -/
def batchRule : (name : String) → Kernel
  | "add" | "mul" | "neg" => Batching.pointwise
  | "unsqueeze" => Batching.unsqueeze
  | "add_" => Batching.addInPlace
  | _ => Batching.missingRule

/-- The kernels of an operator. Random draws alone have one that fires under every batching
layer.
-/
def standardKernel? (name : String) : KernelTable
  | .entryInterceptor => some entryInterceptor
  | .batchMode => if name = "rand" then some Batching.random else none
  | .batched => some (batchRule name)
  | .differentiation => some differentiationBody
  | .inplaceOrView => none
  | .taggedWrapper => some deadWrapperFallback
  | .exitInterceptor => some exitInterceptor
  | .backend => baseKernel? name

/-- The tables that the assembly leads to, written out. The assembly registers operators, kernels
and rules one after another and refuses what clashes; none of its refusals happens.
-/
theorem standard_eq
    : standard =
        { operators :=
            [ ⟨Base.binarySchema "add",
                (KernelTable.empty.set .backend (Base.binary "Add" (· + ·))).set .batched
                  Batching.pointwise⟩,
              ⟨Base.binarySchema "mul",
                (KernelTable.empty.set .backend (Base.binary "Mul" (· * ·))).set .batched
                  Batching.pointwise⟩,
              ⟨Base.unarySchema "neg",
                (KernelTable.empty.set .backend Base.neg).set .batched Batching.pointwise⟩,
              ⟨Base.unarySchema "sum", KernelTable.empty.set .backend Base.sum⟩,
              ⟨Base.schemas[4], KernelTable.empty.set .backend Base.addAll⟩,
              ⟨Base.schemas[5],
                (KernelTable.empty.set .backend Base.unsqueeze).set .batched Batching.unsqueeze⟩,
              ⟨Base.factorySchema "zeros", KernelTable.empty.set .backend Base.zeros⟩,
              ⟨Base.factorySchema "rand",
                (KernelTable.empty.set .backend Base.rand).set .batchMode Batching.random⟩,
              ⟨Base.schemas[8],
                (KernelTable.empty.set .backend Base.addInPlace).set .batched
                  Batching.addInPlace⟩,
              ⟨Base.schemas[9], KernelTable.empty.set .backend Base.resizeInPlace⟩ ],
          fallbacks :=
            ((((KernelTable.empty.set .entryInterceptor entryInterceptor).set .exitInterceptor
              exitInterceptor).set .taggedWrapper deadWrapperFallback).set .differentiation
                differentiationBody).set .batched Batching.missingRule } :=
  rfl

/-- The assembly keeps the schemas of the base operators in their order. -/
theorem standard_schemas : standard.operators.map Operator.schema = Base.schemas :=
  rfl

/-- An operator that is found has one of the base schemas, the one of its name. -/
theorem operator?_standard {name : String} {operator : Operator}
    (found : standard.operator? name = some operator)
    : operator.schema ∈ Base.schemas ∧ operator.schema.name = name := by
  refine ⟨?_, by simpa using List.find?_some found⟩
  rw [← standard_schemas]
  exact List.mem_map_of_mem (List.mem_of_find?_eq_some found)

/-- The same for the schema that is found under a name. -/
theorem schema?_standard {name : String} {op : Schema}
    (found : standard.schema? name = some op)
    : op ∈ Base.schemas ∧ op.name = name := by
  obtain ⟨operator, present, rfl⟩ := Option.map_eq_some_iff.mp found
  exact operator?_standard present

/-- The table of a known operator, hook by hook. -/
theorem kernel?_of_mem {schema : Schema} (member : schema ∈ Base.schemas)
    (capability : Capability)
    : standard.kernel? schema capability = standardKernel? schema.name capability := by
  simp only [Base.schemas, List.mem_cons, List.not_mem_nil, or_false] at member
  rw [standard_eq]
  rcases member with rfl | rfl | rfl | rfl | rfl | rfl | rfl | rfl | rfl | rfl <;>
    cases capability <;> rfl

/-- A name that no base schema has is served by the fallbacks, which agree with the table of such a
name: no base kernel, and the rule that refuses.
-/
theorem fallbacks_standard {name : String}
    (absent : ∀ schema ∈ Base.schemas, schema.name ≠ name) (capability : Capability)
    : standard.fallbacks capability = standardKernel? name capability := by
  simp only [Base.schemas, List.forall_mem_cons, Base.binarySchema, Base.unarySchema,
    Base.factorySchema] at absent
  obtain ⟨add, mul, neg, sum, addAll, unsqueeze, zeros, rand, addInPlace, resizeInPlace, -⟩ :=
    absent
  cases capability with
  | batchMode => simp only [standardKernel?, Ne.symm rand, if_false]; rfl
  | batched =>
      simp only [standardKernel?]
      unfold batchRule
      split <;> first | contradiction | rfl
  | backend =>
      simp only [standardKernel?]
      unfold baseKernel?
      split <;> first | contradiction | rfl
  | entryInterceptor | differentiation | inplaceOrView | taggedWrapper | exitInterceptor => rfl

/-- The kernel of an operator for a hook depends on its name alone. Known operators have tables of
their own, and the others are left to the fallbacks.
-/
theorem kernel?_standard (op : Schema) (capability : Capability)
    : standard.kernel? op capability = standardKernel? op.name capability := by
  cases found : standard.operator? op.name with
  | some operator =>
      obtain ⟨member, named⟩ := operator?_standard found
      rw [← named, ← kernel?_of_mem member]
      simp only [kernel?, named]
  | none =>
      simp only [kernel?, found, Option.bind_none]
      apply fallbacks_standard
      intro schema member named
      rw [← standard_schemas] at member
      obtain ⟨operator, present, rfl⟩ := List.mem_map.mp member
      simpa [named] using List.find?_eq_none.mp found operator present

/-- One step of the walk along the hooks of a set: the first of them is asked if the set has it, and
the walk goes on if it has no kernel.
-/
theorem findSome?_contains (set : CapabilitySet)
    (kernels : Capability → Option (Capability × Kernel)) (capability : Capability)
    (capabilities : List Capability)
    : ((capability :: capabilities).filter set.contains).findSome? kernels =
        if set.contains capability then
          (kernels capability).or ((capabilities.filter set.contains).findSome? kernels)
        else (capabilities.filter set.contains).findSome? kernels := by
  cases member : set.contains capability with
  | true =>
      simp only [List.filter_cons, member, if_true, List.findSome?_cons]
      cases kernels capability <;> rfl
  | false => simp [member]

/-- The standard dispatcher asks the hooks of a set in the order of their priorities. The chain
comes from walking along all hooks one by one; the mode of batching is passed over by every operator
but the random one, and the hook of views by all.
-/
theorem select_standard (op : Schema) (set : CapabilitySet)
    : standard.select op set =
        if set.contains .entryInterceptor then some (.entryInterceptor, entryInterceptor)
        else if set.contains .batchMode ∧ op.name = "rand" then
          some (.batchMode, Batching.random)
        else if set.contains .batched then some (.batched, batchRule op.name)
        else if set.contains .differentiation then some (.differentiation, differentiationBody)
        else if set.contains .taggedWrapper then some (.taggedWrapper, deadWrapperFallback)
        else if set.contains .exitInterceptor then some (.exitInterceptor, exitInterceptor)
        else if set.contains .backend then
          (baseKernel? op.name).map fun kernel => (.backend, kernel)
        else none := by
  simp only [select, CapabilitySet.toList, Capability.all, List.reverse_cons, List.reverse_nil,
    List.nil_append, List.cons_append, findSome?_contains, List.filter_nil, List.findSome?_nil,
    kernel?_standard, standardKernel?, Option.map_some, Option.map_none, Option.some_or,
    Option.none_or, Option.or_none, ite_self]
  by_cases random : op.name = "rand"
  · simp only [random, if_true, Option.map_some, Option.some_or, and_true]
  · simp only [random, if_false, Option.map_none, Option.none_or, and_false, ite_self]

/-- The base is reached only if no hook of layers is in the set. Of the chain of conditions only the
last case has the base, and each condition before it has failed.
-/
theorem select_backend {op : Schema} {set : CapabilitySet} {kernel : Kernel}
    (selected : standard.select op set = some (.backend, kernel))
    : baseKernel? op.name = some kernel
      ∧ set.contains .entryInterceptor = false
      ∧ set.contains .batched = false
      ∧ set.contains .differentiation = false
      ∧ set.contains .taggedWrapper = false
      ∧ set.contains .exitInterceptor = false := by
  rw [select_standard] at selected
  split at selected
  · cases selected
  rename_i entry
  split at selected
  · cases selected
  split at selected
  · cases selected
  rename_i batched
  split at selected
  · cases selected
  rename_i differentiation
  split at selected
  · cases selected
  rename_i taggedWrapper
  split at selected
  · cases selected
  rename_i exit
  split at selected
  · obtain ⟨base, found, chosen⟩ := Option.map_eq_some_iff.mp selected
    cases chosen
    simp only [Bool.not_eq_true] at entry batched differentiation taggedWrapper exit
    exact ⟨found, entry, batched, differentiation, taggedWrapper, exit⟩
  · cases selected

end Dispatcher
end LayeredDispatch
