import ClearNames.Proofs.NameTree.Operations

/-! Registering the obfuscation of a method.

A registration resolves the owner and the argument types before it looks for a
method that holds the obfuscation. A tree in which another method holds it is
left as it was all the same: the types of a method that there is were there
already, and growth that reaches them makes nothing.
-/

set_option autoImplicit false

namespace ClearNames

namespace NameTree

/-- A method of a class, not the one of a given clear name, that has certain
arguments and carries an obfuscation. -/
def HoldsInstead (tree : NameTree) (owner : ClassId) (name : String) (arguments : List TypeUse)
    (obfuscation : String) (holder : MethodId) : Prop :=
  holder ∈ (tree.javaClass owner).methods.values ∧ (tree.method holder).arguments = arguments ∧
    (tree.method holder).obfuscation = some obfuscation ∧ tree.findMethod owner name arguments ≠ some holder

section
variable {tree later : NameTree} {owner : ClassId} {name obfuscation : String} {arguments : List TypeUse}

theorem otherHolder_eq_some_iff (apart : tree.Apart) {holder : MethodId} :
    tree.otherHolder owner name obfuscation arguments = some holder ↔
      tree.HoldsInstead owner name arguments obfuscation holder := by
  unfold otherHolder HoldsInstead
  rw [Option.filter_eq_some_iff, apart.methodWithObfuscation_eq_some_iff]
  simp only [decide_eq_true_eq]
  constructor
  · rintro ⟨⟨member, carries, argued⟩, other⟩
    exact ⟨member, argued, carries, other⟩
  · rintro ⟨member, argued, carries, other⟩
    exact ⟨⟨member, carries, argued⟩, other⟩

theorem otherHolder_eq_none_iff (apart : tree.Apart) :
    tree.otherHolder owner name obfuscation arguments = none ↔
      ∀ holder, ¬ tree.HoldsInstead owner name arguments obfuscation holder := by
  rw [Option.eq_none_iff_forall_ne_some]
  exact forall_congr' fun holder => not_congr (otherHolder_eq_some_iff apart)

theorem Grown.otherHolder {fits : List String → Prop} (grown : Grown fits tree later) :
    later.otherHolder owner name obfuscation arguments = tree.otherHolder owner name obfuscation arguments := by
  simp only [NameTree.otherHolder, grown.methodWithObfuscation, grown.findMethod]

theorem HoldsInstead.founded (formed : tree.Formed) {holder : MethodId}
    (holds : tree.HoldsInstead owner name arguments obfuscation holder) :
    tree.HasClass owner ∧ ∀ type ∈ arguments, tree.HasType type := by
  obtain ⟨member, rfl, -, -⟩ := holds
  obtain ⟨key, entry⟩ := OrderedTable.mem_values.mp member
  obtain ⟨known, -, rfl⟩ := formed.entered.method entry
  have placed := formed.founded.method known
  exact ⟨placed.1, placed.2.2⟩

theorem overloadWith_eq_none (formed : tree.Formed) {id : MethodId}
    (found : tree.findMethod owner name arguments = some id)
    (free : tree.otherHolder owner name obfuscation arguments = none) : tree.overloadWith id obfuscation = none := by
  obtain ⟨known, keyed, owned⟩ := formed.entered.method (OrderedTable.mem_of_find?_eq_some found)
  have argued : (tree.method id).arguments = arguments := congrArg Prod.snd keyed
  simp only [overloadWith, owned, argued]
  cases held : tree.methodWithObfuscation owner obfuscation arguments with
  | none => rfl
  | some holder =>
    simp only [otherHolder, held, Option.filter_some, found] at free
    by_cases same : holder = id
    · simp [same]
    · simp [Ne.symm same] at free

theorem otherHolder_addMethod (formed : tree.Formed) {returns : TypeUse}
    (grounded : tree.Grounded (.method owner name returns arguments))
    (missing : tree.findMethod owner name arguments = none)
    (free : tree.otherHolder owner name obfuscation arguments = none) :
    (tree.add (.method owner name returns arguments)).otherHolder owner name obfuscation arguments = none := by
  have made := formed.edit (.add grounded)
  refine (otherHolder_eq_none_iff made.apart).mpr fun holder holds => ?_
  refine (otherHolder_eq_none_iff formed.apart).mp free holder ?_
  obtain ⟨member, argued, carries, -⟩ := holds
  rw [method_obfuscation_add] at carries
  -- The new method carries no obfuscation yet, so that the holder was there before.
  rcases (methods_add grounded owner).mem_values member with old | ⟨key, ⟨-, fresh⟩, -⟩
  · obtain ⟨key, entry⟩ := OrderedTable.mem_values.mp old
    rw [(keeps_add grounded).method_arguments (formed.entered.method entry).1] at argued
    exact ⟨old, argued, carries, by simp [missing]⟩
  · rw [method_of_not_has fresh] at carries
    cases carries

end

end NameTree

namespace Growth
open NameTree

variable {tree between later : NameTree} {owner : ClassId} {text obfuscation : String} {signature : Signature}
  {arguments : List TypeUse}

theorem on_obfuscateMethod_of_free {id : MethodId} (free : tree.overloadWith id obfuscation = none) :
    (obfuscateMethod id (some obfuscation)).on tree =
      (.ok ⟨⟩, tree.putMethodObfuscation id (some obfuscation)) := by
  unfold obfuscateMethod
  rw [on_get_bind]
  simp [free]

theorem on_registerMethod_of_holder {holder : MethodId} (parsed : Signature.parse? text = some signature)
    (argued : (resolveTypes signature.arguments).on tree = (.ok arguments, between))
    (held : between.otherHolder owner signature.name obfuscation arguments = some holder) :
    (registerMethod owner text obfuscation).on tree = (.ok (.duplicate holder), between) := by
  unfold registerMethod readSignature
  rw [parsed, on_bind_of_ok (on_pure tree signature), on_bind_of_ok argued, on_get_bind, held]
  rfl

theorem on_registerMethod_of_free {id : MethodId} (parsed : Signature.parse? text = some signature)
    (argued : (resolveTypes signature.arguments).on tree = (.ok arguments, between))
    (free : between.otherHolder owner signature.name obfuscation arguments = none)
    (found : (findOrAddMethod owner signature arguments).on between = (.ok id, later))
    (vacant : later.overloadWith id obfuscation = none) :
    (registerMethod owner text obfuscation).on tree =
      (.ok (.registered id), later.putMethodObfuscation id (some obfuscation)) := by
  unfold registerMethod readSignature
  rw [parsed, on_bind_of_ok (on_pure tree signature), on_bind_of_ok argued, on_get_bind, free]
  dsimp only
  rw [on_bind_of_ok found, on_bind_of_ok (on_obfuscateMethod_of_free vacant)]
  rfl

theorem on_findOrAddMethod_eq_ok {id : MethodId}
    (ran : (findOrAddMethod owner signature arguments).on tree = (.ok id, later)) :
    (tree.findMethod owner signature.name arguments = some id ∧ later = tree) ∨
      (tree.findMethod owner signature.name arguments = none ∧ ∃ returns between,
        (resolveType signature.returns).on tree = (.ok returns, between) ∧ id = ⟨between.methods.size⟩ ∧
          later = between.add (.method owner signature.name returns arguments)) := by
  unfold findOrAddMethod at ran
  rw [on_get_bind] at ran
  cases found : tree.findMethod owner signature.name arguments with
  | some there =>
    rw [found] at ran
    cases ran
    exact .inl ⟨rfl, rfl⟩
  | none =>
    rw [found] at ran
    obtain ⟨returns, between, returned, made⟩ := on_bind_eq_ok ran
    cases made
    exact .inr ⟨rfl, returns, between, returned, rfl, rfl⟩

theorem on_obfuscateMethod_eq_ok {id : MethodId} {value : Unit}
    (ran : (obfuscateMethod id (some obfuscation)).on tree = (.ok value, later)) :
    later = tree.putMethodObfuscation id (some obfuscation) := by
  unfold obfuscateMethod at ran
  rw [on_get_bind] at ran
  split at ran
  · cases ran
  · cases ran
    rfl

theorem on_recordMethod_eq_ok {outcome : Registration}
    (ran : (recordMethod owner signature arguments obfuscation).on tree = (.ok outcome, later)) :
    (∃ holder, tree.otherHolder owner signature.name obfuscation arguments = some holder ∧
        outcome = .duplicate holder ∧ later = tree) ∨
      ∃ id made, tree.otherHolder owner signature.name obfuscation arguments = none ∧
        (findOrAddMethod owner signature arguments).on tree = (.ok id, made) ∧ outcome = .registered id ∧
        later = made.putMethodObfuscation id (some obfuscation) := by
  unfold recordMethod at ran
  rw [on_get_bind] at ran
  cases held : tree.otherHolder owner signature.name obfuscation arguments with
  | some holder =>
    rw [held] at ran
    cases ran
    exact .inl ⟨holder, rfl, rfl, rfl⟩
  | none =>
    rw [held] at ran
    obtain ⟨id, made, found, marking⟩ := on_bind_eq_ok ran
    obtain ⟨_, _, marked, ends⟩ := on_bind_eq_ok marking
    cases ends
    exact .inr ⟨id, made, rfl, found, rfl, on_obfuscateMethod_eq_ok marked⟩

theorem on_registerMethod_eq_ok {outcome : Registration}
    (ran : (registerMethod owner text obfuscation).on tree = (.ok outcome, later)) :
    ∃ signature arguments named, Signature.parse? text = some signature ∧
      (resolveTypes signature.arguments).on tree = (.ok arguments, named) ∧
      (recordMethod owner signature arguments obfuscation).on named = (.ok outcome, later) := by
  rw [registerMethod_eq] at ran
  obtain ⟨signature, _, read, resolving⟩ := on_bind_eq_ok ran
  obtain ⟨arguments, named, argued, rest⟩ := on_bind_eq_ok resolving
  unfold readSignature at read
  cases parsed : Signature.parse? text with
  | none =>
    rw [parsed] at read
    cases read
  | some given =>
    rw [parsed] at read
    cases read
    exact ⟨signature, arguments, named, rfl, argued, rest⟩

/-- The method of a clear name is there and carries an obfuscation, and no other method's changed. -/
structure Registers (tree later : NameTree) (owner : ClassId) (name : String) (arguments : List TypeUse)
    (obfuscation : String) (id : MethodId) : Prop where
  found : later.findMethod owner name arguments = some id
  carries : (later.method id).obfuscation = some obfuscation
  others : ∀ other, other ≠ id → (later.method other).obfuscation = (tree.method other).obfuscation

theorem registers_putMethodObfuscation {name : String} {id : MethodId} (formed : tree.Formed)
    (found : tree.findMethod owner name arguments = some id) :
    Registers tree (tree.putMethodObfuscation id (some obfuscation)) owner name arguments obfuscation id := by
  have known := (formed.entered.method (OrderedTable.mem_of_find?_eq_some found)).1
  refine ⟨?_, ?_, fun other apart => ?_⟩
  · exact found
  · rw [obfuscation_putMethodObfuscation known, if_pos rfl]
  · rw [obfuscation_putMethodObfuscation known, if_neg apart]

theorem registerMethod_registers {named last : NameTree} {returns : TypeUse} (formed : tree.Formed)
    (known : tree.HasClass owner) (parsed : Signature.parse? text = some signature)
    (argued : (resolveTypes signature.arguments).on tree = (.ok arguments, named))
    (returned : (resolveType signature.returns).on named = (.ok returns, last))
    (free : tree.otherHolder owner signature.name obfuscation arguments = none) :
    ∃ id later, (registerMethod owner text obfuscation).on tree = (.ok (.registered id), later) ∧
      Registers tree later owner signature.name arguments obfuscation id := by
  have argumentsGrow := resolveTypes_grows_any formed signature.arguments
  have grown := argumentsGrow.moved_to argued
  have spelled := (argumentsGrow.returns argued).1
  have namedFormed := grown.formed formed
  have namedFree := grown.otherHolder.trans free
  -- The result type is resolved only where the method is made.
  cases found : named.findMethod owner signature.name arguments with
  | some id =>
    have vacant := overloadWith_eq_none namedFormed found namedFree
    refine ⟨id, _, on_registerMethod_of_free parsed argued namedFree (on_findOrAddMethod_of_found found) vacant, ?_⟩
    have registers : Registers named _ owner signature.name arguments obfuscation id :=
      registers_putMethodObfuscation namedFormed found
    refine ⟨registers.found, registers.carries, fun other apart => ?_⟩
    rw [registers.others other apart, grown.method]
  | none =>
    have returnsGrow := resolveType_grows_any namedFormed signature.returns
    have grownLast := returnsGrow.moved_to returned
    have lastFormed := grownLast.formed namedFormed
    have grounded : last.Grounded (.method owner signature.name returns arguments) :=
      grownLast.grounded_method (grown.keeps.hasClass known) (hasType_of_spelled spelled)
        (returnsGrow.returns returned).1.hasType _
    have missing := (grownLast.findMethod owner signature.name arguments).trans found
    have lastFree := grownLast.otherHolder.trans namedFree
    have madeFormed := lastFormed.edit (.add grounded)
    have madeFound : (last.add _).findMethod owner signature.name arguments = some ⟨last.methods.size⟩ :=
      findMethod_addMethod grounded.1 returns
    have madeFree := otherHolder_addMethod lastFormed grounded missing lastFree
    have vacant := overloadWith_eq_none madeFormed madeFound madeFree
    refine ⟨_, _, on_registerMethod_of_free parsed argued namedFree (on_findOrAddMethod_of_missing found returned)
      vacant, ?_⟩
    have registers : Registers (last.add _) _ owner signature.name arguments obfuscation _ :=
      registers_putMethodObfuscation madeFormed madeFound
    refine ⟨registers.found, registers.carries, fun other apart => ?_⟩
    rw [registers.others other apart, method_obfuscation_add, grownLast.method, grown.method]

end Growth

namespace NameTree
open Growth

/-- The class and the types that a registration names resolve, one after the other. -/
def Resolves (tree : NameTree) (reference : ClassReference) (signature : Signature) (owner : ClassId)
    (arguments : List TypeUse) : Prop :=
  ∃ between named last returns,
    (resolveReference reference).on tree = (.ok owner, between) ∧
      (resolveTypes signature.arguments).on between = (.ok arguments, named) ∧
      (resolveType signature.returns).on named = (.ok returns, last)

/-- Registering a method's obfuscation does all or nothing. Where another method
holds the obfuscation the whole tree is as before; else it is recorded, and no
other method's obfuscation changed. Insisting on it fails in the first case only. -/
theorem Reachable.registration_all_or_nothing {tree : NameTree} {reference : ClassReference}
    {text obfuscation : String} {signature : Signature} {owner : ClassId} {arguments : List TypeUse}
    (reachable : Reachable tree) (held : tree.HoldsReference reference)
    (parsed : Signature.parse? text = some signature) (resolves : tree.Resolves reference signature owner arguments) :
    (∀ holder, tree.HoldsInstead owner signature.name arguments obfuscation holder →
      (registerMethodOf reference text obfuscation).on tree = (.ok (.duplicate holder), tree) ∧
        (aliasMethodOf reference text obfuscation).on tree =
          (.error (.obfuscationTaken obfuscation (tree.describeMethod holder) (tree.claimantName owner text)), tree)) ∧
    ((∀ holder, ¬ tree.HoldsInstead owner signature.name arguments obfuscation holder) →
      ∃ id later, (registerMethodOf reference text obfuscation).on tree = (.ok (.registered id), later) ∧
        (aliasMethodOf reference text obfuscation).on tree = (.ok id, later) ∧
        later.findMethod owner signature.name arguments = some id ∧
        (later.method id).obfuscation = some obfuscation ∧
        ∀ other, other ≠ id → (later.method other).obfuscation = (tree.method other).obfuscation) := by
  obtain ⟨between, named, last, returns, found, argued, returned⟩ := resolves
  have formed := reachable.formed
  have ownerGrows := resolveReference_grows formed held
  have grown := ownerGrows.moved_to found
  obtain ⟨known, settled⟩ := ownerGrows.returns found
  have register : (registerMethodOf reference text obfuscation).on tree =
      (registerMethod owner text obfuscation).on between := on_bind_of_ok found _
  have insist : (aliasMethodOf reference text obfuscation).on tree =
      (aliasMethod owner text obfuscation).on between := on_bind_of_ok found _
  rw [register, insist]
  constructor
  · intro holder holds
    -- The holder refers to its class and to its types: they were there, and nothing was made for them.
    obtain ⟨ownerThere, typesThere⟩ := holds.founded formed
    obtain rfl := settled ownerThere
    obtain rfl := ((resolveTypes_grows_any formed signature.arguments).returns argued).2 typesThere
    have duplicate := on_registerMethod_of_holder parsed argued ((otherHolder_eq_some_iff formed.apart).mpr holds)
    refine ⟨duplicate, ?_⟩
    unfold aliasMethod
    rw [on_bind_of_ok duplicate]
    rfl
  · intro absent
    have free := grown.otherHolder.trans ((otherHolder_eq_none_iff formed.apart).mpr absent)
    obtain ⟨id, later, registered, registers⟩ :=
      registerMethod_registers (grown.formed formed) known parsed argued returned free
    refine ⟨id, later, registered, ?_, registers.found, registers.carries, fun other apart => ?_⟩
    · unfold aliasMethod
      rw [on_bind_of_ok registered]
      rfl
    · rw [registers.others other apart, grown.method]

def oneMethod : NameTree := Request.after .empty (.registerMethod (.named "com.Foo") "void bar(int)" "a")

/-- A second method with an `int` that claims the obfuscation is turned away, and one with a `long` is not. -/
theorem registration_all_or_nothing_oneMethod :
    (registerMethodOf (.named "com.Foo") "void baz(int)" "a").on oneMethod = (.ok (.duplicate ⟨0⟩), oneMethod) ∧
      ∃ id later, (registerMethodOf (.named "com.Foo") "void baz(long)" "a").on oneMethod =
        (.ok (.registered id), later) ∧ (later.method id).obfuscation = some "a" := by
  have held : Request.Held .empty (.registerMethod (.named "com.Foo") "void bar(int)" "a") := trivial
  have reachable : Reachable oneMethod := (Requested.after .empty held).reachable
  have named : oneMethod.HoldsReference (.named "com.Foo") := trivial
  have owner : (resolveReference (.named "com.Foo")).on oneMethod = (.ok ⟨0⟩, oneMethod) := by decide +kernel
  have int : (resolveTypes ["int"]).on oneMethod = (.ok [⟨.primitive .int, 0⟩], oneMethod) := by decide +kernel
  have long : (resolveTypes ["long"]).on oneMethod = (.ok [⟨.primitive .long, 0⟩], oneMethod) := by decide +kernel
  have void : (resolveType "void").on oneMethod = (.ok ⟨.primitive .void, 0⟩, oneMethod) := by decide +kernel
  have withInt : Signature.parse? "void baz(int)" = some ⟨"void", "baz", ["int"]⟩ := by decide +kernel
  have withLong : Signature.parse? "void baz(long)" = some ⟨"void", "baz", ["long"]⟩ := by decide +kernel
  have holds : oneMethod.HoldsInstead ⟨0⟩ "baz" [⟨.primitive .int, 0⟩] "a" ⟨0⟩ := by
    unfold HoldsInstead
    decide +kernel
  have free : ∀ holder, ¬ oneMethod.HoldsInstead ⟨0⟩ "baz" [⟨.primitive .long, 0⟩] "a" holder := by
    refine (otherHolder_eq_none_iff reachable.formed.apart).mp ?_
    decide +kernel
  have turned := (reachable.registration_all_or_nothing named withInt ⟨_, _, _, _, owner, int, void⟩).1 ⟨0⟩ holds
  obtain ⟨id, later, registered, -, -, carries, -⟩ :=
    (reachable.registration_all_or_nothing named withLong ⟨_, _, _, _, owner, long, void⟩).2 free
  exact ⟨turned.1, id, later, registered, carries⟩

end NameTree

end ClearNames
