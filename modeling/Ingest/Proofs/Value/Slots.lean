import Mathlib.Data.List.Basic
import Mathlib.Data.List.Find
import Mathlib.Data.List.Induction
import Ingest.Value.Build

/-!
Contract: a map built from pairs holds one entry for each slot of their keys, in the order in
which the slots first occur, and each entry is the last pair of its slot.

Owns: when two keys share a slot: their tags (the kind, integers of both sizes under one tag)
agree and they are loosely equal (`Scalar.sameSlot_iff`), a relation that is symmetric,
transitive, and reflexive on every key but not-a-number; the slots of a list of pairs in order of
first occurrence (`Entries.slotKeys`) and the last pair of each (`Entries.lastInSlot`); what
putting a key does to entries, for a lookup (`Entries.get?_put`) and for the list as a whole
(`Entries.put_filterMap`); and from these, the entries of a map built from pairs
(`Entries.ofPairs_eq_slots`), what a lookup by a key of any kind finds, and the refusal of a key
that is a list or a map (`Value.mapOfPairs_slots`); and maps built from two lists of pairs aligned
one to one, whose keys share slots alike on both sides (`Entries.forall₂_ofPairs`).

Does not own: the maps that reading a document builds; those are `Relaxed.Lookup`.
-/

namespace Ingest

/-! ### Sharing a slot -/

namespace Binary64

theorem sameValue_comm (x y : Binary64) : x.sameValue y = y.sameValue x := by
  unfold sameValue
  by_cases same : x = y
  · subst same
    rfl
  · have one : (x == y) = false := by simp [same]
    have other : (y == x) = false := by simp [Ne.symm same]
    simp only [one, other, Bool.false_or]
    cases x.isNaN <;> cases y.isNaN <;> cases x.isZero <;> cases y.isZero <;> rfl

theorem sameValue_trans {x y z : Binary64} (xy : x.sameValue y = true)
    (yz : y.sameValue z = true) : x.sameValue z = true := by
  simp only [sameValue, Bool.and_eq_true, Bool.not_eq_true', Bool.or_eq_true, beq_iff_eq]
    at xy yz ⊢
  obtain ⟨⟨xNumber, -⟩, xy⟩ := xy
  obtain ⟨⟨-, zNumber⟩, yz⟩ := yz
  refine ⟨⟨xNumber, zNumber⟩, ?_⟩
  -- equal bits pass the second relation on; two zeros stay zeros on either side
  rcases xy with rfl | ⟨xZero, yZero⟩
  · exact yz
  · rcases yz with rfl | ⟨-, zZero⟩
    · exact .inr ⟨xZero, yZero⟩
    · exact .inr ⟨xZero, zZero⟩

theorem sameValue_self {x : Binary64} (number : x.isNaN = false) : x.sameValue x = true := by
  simp [sameValue, number]

end Binary64

namespace Scalar

/-- The tag of a key's slot: the name of its kind, with integers of both sizes under one tag. -/
def slotTag (k : Scalar) : String :=
  if k.kind = .int32 ∨ k.kind = .int64 then "int" else k.kind.name

/-- **Two keys share a slot when their tags agree and they are loosely equal.** So `true`, `1`
and `1.0` are in three slots, while `0.0` and `-0.0` share one. -/
theorem sameSlot_iff (a b : Scalar) :
    a.sameSlot b = true ↔ a.slotTag = b.slotTag ∧ a.looseEq b = true := by
  -- keys of different kinds have different tags; of one kind, loose equality is slot equality
  cases a <;> cases b <;> simp [sameSlot, slotTag, kind, looseEq, asInt?, Kind.name, apply_ite]
  -- two booleans compare loosely as the numbers 1 and 0
  case bool.bool x y => cases x <;> cases y <;> simp

theorem sameSlot_comm (a b : Scalar) : a.sameSlot b = b.sameSlot a := by
  cases a <;> cases b <;> simp only [sameSlot, Binary64.sameValue_comm, BEq.comm]

theorem sameSlot_trans {a b c : Scalar} (ab : a.sameSlot b = true) (bc : b.sameSlot c = true) :
    a.sameSlot c = true := by
  -- only keys of one kind share a slot, so the three keys are of one kind
  cases a <;> cases b <;> simp only [sameSlot, Bool.false_eq_true] at ab <;>
    cases c <;> simp only [sameSlot, Bool.false_eq_true] at bc ⊢
  case float.float.float => exact Binary64.sameValue_trans ab bc
  all_goals
    simp only [beq_iff_eq] at ab bc ⊢
    exact ab.trans bc

/-- A key shares its own slot unless it is not-a-number. -/
theorem sameSlot_self {k : Scalar} (number : ∀ x, k = .float x → x.isNaN = false) :
    k.sameSlot k = true := by
  cases k <;> simp [sameSlot]
  exact Binary64.sameValue_self (number _ rfl)

theorem eq_of_sameSlot_str {k : Scalar} {a : Text.Str} (slot : k.sameSlot (.str a) = true) :
    k = .str a := by
  cases k <;> simp_all [sameSlot]

end Scalar

/-! ### The slots of a list of pairs -/

namespace Entries

/-- Putting a key in changes what its own slot gives, and nothing else. -/
theorem get?_put (es : List (Scalar × Value)) (k : Scalar) (v : Value) (k' : Scalar) :
    get? (put es k v) k' = if k.sameSlot k' then some v else get? es k' := by
  induction es with
  | nil => by_cases hit : k.sameSlot k' <;> simp [put, get?, hit]
  | cons e es ih =>
    obtain ⟨k0, v0⟩ := e
    by_cases same : k0.sameSlot k
    · -- the entry of `k`'s slot takes the new key and value: it is in the slot of `k'` exactly
      -- when `k` is
      rw [put, if_pos same]
      by_cases hit : k.sameSlot k'
      · simp [get?, hit]
      · have miss : k0.sameSlot k' = false := by
          by_contra found
          rw [Bool.not_eq_false] at found
          rw [Scalar.sameSlot_comm] at same
          exact hit (Scalar.sameSlot_trans same found)
        simp [get?, hit, miss]
    · rw [put, if_neg same]
      by_cases hit : k0.sameSlot k'
      · have miss : k.sameSlot k' = false := by
          by_contra found
          rw [Bool.not_eq_false] at found
          rw [Scalar.sameSlot_comm] at found
          exact same (Scalar.sameSlot_trans hit found)
        simp [get?, hit, miss]
      · simp only [get?, List.find?_cons, hit] at ih ⊢
        exact ih

theorem get?_foldl_put (pairs acc : List (Scalar × Value)) (k : Scalar) :
    get? (pairs.foldl (fun acc p => put acc p.1 p.2) acc) k =
      ((pairs.reverse.find? fun p => p.1.sameSlot k).map Prod.snd).or (get? acc k) := by
  induction pairs generalizing acc with
  | nil => simp
  | cons p pairs ih =>
    rw [List.foldl_cons, ih, get?_put, List.reverse_cons, List.find?_append]
    by_cases hit : p.1.sameSlot k <;> simp [hit]

/-- **The last pair of a slot wins.** A map built from pairs gives, in the slot of any key, the
value of the last pair whose key is in that slot. -/
theorem get?_ofPairs (pairs : List (Scalar × Value)) (k : Scalar) :
    get? (ofPairs pairs) k = (pairs.reverse.find? fun p => p.1.sameSlot k).map Prod.snd := by
  rw [ofPairs, get?_foldl_put]
  simp [get?]

/-- The keys that open a slot, in order: each key whose slot no earlier key is in. -/
def slotKeys (pairs : List (Scalar × Value)) : List Scalar :=
  (pairs.map Prod.fst).eraseDupsBy Scalar.sameSlot

/-- The last pair whose key is in the slot of `k`. -/
def lastInSlot (pairs : List (Scalar × Value)) (k : Scalar) : Option (Scalar × Value) :=
  pairs.reverse.find? fun p => p.1.sameSlot k

theorem eraseDupsBy_loop_append_singleton {α : Type} (r : α → α → Bool) (a : α) :
    ∀ (l bs : List α), List.eraseDupsBy.loop r (l ++ [a]) bs =
      List.eraseDupsBy.loop r l bs ++
        if (List.eraseDupsBy.loop r l bs).any (r a) then [] else [a]
  | [], bs => by cases h : bs.any (r a) <;> simp [List.eraseDupsBy.loop, h]
  | x :: l, bs => by
    cases h : bs.any (r x) <;>
      simp [List.eraseDupsBy.loop, h, eraseDupsBy_loop_append_singleton r a l]

/-- Keeping the first element of each class, an element put at the end is kept exactly when no
kept element is in its class. -/
theorem eraseDupsBy_append_singleton {α : Type} (r : α → α → Bool) (l : List α) (a : α) :
    (l ++ [a]).eraseDupsBy r =
      l.eraseDupsBy r ++ if (l.eraseDupsBy r).any (r a) then [] else [a] :=
  eraseDupsBy_loop_append_singleton r a l []

theorem slotKeys_append (pairs : List (Scalar × Value)) (p : Scalar × Value) :
    slotKeys (pairs ++ [p]) =
      slotKeys pairs ++ if (slotKeys pairs).any p.1.sameSlot then [] else [p.1] := by
  rw [slotKeys, List.map_append, List.map_singleton, eraseDupsBy_append_singleton]
  rfl

theorem lastInSlot_append (pairs : List (Scalar × Value)) (p : Scalar × Value) (k : Scalar) :
    lastInSlot (pairs ++ [p]) k = if p.1.sameSlot k then some p else lastInSlot pairs k := by
  rw [lastInSlot, List.reverse_append, List.reverse_singleton, List.singleton_append,
    List.find?_cons]
  cases p.1.sameSlot k <;> rfl

/-- Every key that opens a slot is the key of a pair. -/
theorem mem_slotKeys {pairs : List (Scalar × Value)} {k : Scalar}
    (opens : k ∈ slotKeys pairs) : ∃ p ∈ pairs, p.1 = k := by
  induction pairs using List.reverseRecOn with
  | nil => simp [slotKeys] at opens
  | append_singleton pairs p ih =>
    rw [slotKeys_append, List.mem_append] at opens
    rcases opens with old | new
    · obtain ⟨q, member, key⟩ := ih old
      exact ⟨q, List.mem_append_left _ member, key⟩
    · split at new
      · simp at new
      · exact ⟨p, by simp, (List.mem_singleton.mp new).symm⟩

/-- The keys that open slots are in different slots. -/
theorem slotKeys_pairwise (pairs : List (Scalar × Value)) :
    (slotKeys pairs).Pairwise fun a b => a.sameSlot b = false := by
  induction pairs using List.reverseRecOn with
  | nil => simp [slotKeys]
  | append_singleton pairs p ih =>
    rw [slotKeys_append]
    split
    · simpa using ih
    · rename_i fresh
      refine List.pairwise_append.mpr ⟨ih, List.pairwise_singleton _ _, fun a member b new => ?_⟩
      rw [List.mem_singleton.mp new, Scalar.sameSlot_comm]
      simpa using fun hit => fresh (List.any_eq_true.mpr ⟨a, member, hit⟩)

/-- Every pair's slot is opened by a key, when every key shares its own slot. -/
theorem exists_slotKey {pairs : List (Scalar × Value)}
    (selfSlots : ∀ p ∈ pairs, p.1.sameSlot p.1 = true) {p : Scalar × Value} (member : p ∈ pairs) :
    ∃ k ∈ slotKeys pairs, k.sameSlot p.1 = true := by
  induction pairs using List.reverseRecOn with
  | nil => simp at member
  | append_singleton pairs q ih =>
    rw [slotKeys_append]
    rcases List.mem_append.mp member with old | new
    · obtain ⟨k, opens, inSlot⟩ := ih (fun r member => selfSlots r (List.mem_append_left _ member)) old
      exact ⟨k, List.mem_append_left _ opens, inSlot⟩
    · rw [List.mem_singleton.mp new]
      split
      · -- the slot of `q` was opened by an earlier key
        rename_i taken
        obtain ⟨k, opens, hit⟩ := List.any_eq_true.mp taken
        exact ⟨k, List.mem_append_left _ opens, by rw [Scalar.sameSlot_comm]; exact hit⟩
      · exact ⟨q.1, by simp, selfSlots q (by simp)⟩

/-- The slot of a pair's key has a last pair. -/
theorem lastInSlot_of_mem {pairs : List (Scalar × Value)} {p : Scalar × Value} (member : p ∈ pairs)
    {k : Scalar} (inSlot : p.1.sameSlot k = true) :
    ∃ e, lastInSlot pairs k = some e ∧ e.1.sameSlot k = true := by
  cases found : lastInSlot pairs k with
  | none =>
    rw [lastInSlot, List.find?_eq_none] at found
    exact absurd inSlot (found p (List.mem_reverse.mpr member))
  | some e => exact ⟨e, rfl, List.find?_some (p := fun q : Scalar × Value => q.1.sameSlot k) found⟩

/-- Putting a key into entries that hold one entry for each slot of `ks`: the entry of the key's
slot takes the key and the value, or, when the key's slot is none of them, the pair is added at
the end. -/
theorem put_filterMap {f : Scalar → Option (Scalar × Value)} {k : Scalar} {v : Value} :
    ∀ ks : List Scalar, ks.Pairwise (fun a b => a.sameSlot b = false) →
      (∀ j ∈ ks, ∃ e, f j = some e ∧ e.1.sameSlot j = true) →
      put (ks.filterMap f) k v =
        if ks.any k.sameSlot then ks.filterMap fun j => if k.sameSlot j then some (k, v) else f j
        else ks.filterMap f ++ [(k, v)]
  | [], _, _ => rfl
  | j :: ks, apart, filled => by
    obtain ⟨e, found, inSlot⟩ := filled j List.mem_cons_self
    rw [List.pairwise_cons] at apart
    rw [List.filterMap_cons_some found]
    by_cases hit : k.sameSlot j = true
    · -- the entry of `j`'s slot is replaced, and no later slot is the key's
      have entryHit : e.1.sameSlot k = true :=
        Scalar.sameSlot_trans inSlot (by rw [Scalar.sameSlot_comm]; exact hit)
      have later : ∀ i ∈ ks, k.sameSlot i = false := fun i member => by
        cases other : k.sameSlot i
        · rfl
        · have := apart.1 i member
          rw [Scalar.sameSlot_trans (by rw [Scalar.sameSlot_comm]; exact hit) other] at this
          contradiction
      have unchanged : (ks.filterMap fun i => if k.sameSlot i then some (k, v) else f i) =
          ks.filterMap f :=
        List.filterMap_congr fun i member => by rw [later i member, if_neg (by simp)]
      rw [put, if_pos entryHit, List.any_cons, hit, Bool.true_or, if_pos rfl,
        List.filterMap_cons, if_pos hit, unchanged]
    · have entryMiss : e.1.sameSlot k = false := by
        cases other : e.1.sameSlot k
        · rfl
        · exact absurd (Scalar.sameSlot_trans (by rw [Scalar.sameSlot_comm]; exact other) inSlot)
            hit
      have rest := put_filterMap (k := k) (v := v) ks apart.2 fun i member => filled i (List.mem_cons_of_mem j member)
      rw [put, if_neg (by simp [entryMiss]), rest, List.any_cons, Bool.eq_false_iff.mpr hit,
        Bool.false_or]
      split
      · rw [List.filterMap_cons, if_neg hit, found]
      · rfl

/-- **A map built from pairs holds, for each slot in the order in which the slots first occur,
the last pair of that slot**, when every key shares its own slot. -/
theorem ofPairs_eq_slots {pairs : List (Scalar × Value)}
    (selfSlots : ∀ p ∈ pairs, p.1.sameSlot p.1 = true) :
    ofPairs pairs = (slotKeys pairs).filterMap (lastInSlot pairs) := by
  induction pairs using List.reverseRecOn with
  | nil => rfl
  | append_singleton pairs p ih =>
    have earlier : ∀ q ∈ pairs, q.1.sameSlot q.1 = true :=
      fun q member => selfSlots q (List.mem_append_left _ member)
    have filled : ∀ j ∈ slotKeys pairs, ∃ e, lastInSlot pairs j = some e ∧ e.1.sameSlot j = true :=
      fun j opens => by
        obtain ⟨q, member, rfl⟩ := mem_slotKeys opens
        exact lastInSlot_of_mem member (earlier q member)
    have added : lastInSlot (pairs ++ [p]) = fun j =>
        if p.1.sameSlot j then some (p.1, p.2) else lastInSlot pairs j :=
      funext (lastInSlot_append pairs p)
    rw [ofPairs, List.foldl_append, ← ofPairs, ih earlier, List.foldl_cons, List.foldl_nil,
      put_filterMap _ (slotKeys_pairwise pairs) filled, slotKeys_append, added]
    split
    · rw [List.append_nil]
    · -- `p` opens a new slot, where it is the last pair; the other slots are as they were
      rename_i fresh
      have apart : ∀ j ∈ slotKeys pairs, p.1.sameSlot j = false := fun j opens => by
        simpa using fun hit => fresh (List.any_eq_true.mpr ⟨j, opens, hit⟩)
      have opened : [p.1].filterMap (fun j =>
          if p.1.sameSlot j then some (p.1, p.2) else lastInSlot pairs j) = [(p.1, p.2)] := by
        simp [selfSlots p (by simp)]
      rw [List.filterMap_append, opened]
      congr 1
      exact List.filterMap_congr fun j opens => by simp [apart j opens]

/-- Each slot of the pairs has its entry. -/
theorem length_ofPairs {pairs : List (Scalar × Value)}
    (selfSlots : ∀ p ∈ pairs, p.1.sameSlot p.1 = true) :
    (ofPairs pairs).length = (slotKeys pairs).length := by
  rw [ofPairs_eq_slots selfSlots, List.filterMap_length_eq_length]
  intro j opens
  obtain ⟨q, member, rfl⟩ := mem_slotKeys opens
  obtain ⟨e, found, -⟩ := lastInSlot_of_mem member (selfSlots q member)
  simp [found]

theorem exists_entry {pairs : List (Scalar × Value)} {p : Scalar × Value} (member : p ∈ pairs)
    (own : p.1.sameSlot p.1 = true) : ∃ e ∈ ofPairs pairs, e.1.sameSlot p.1 = true := by
  -- the lookup of the pair's own key finds an entry
  have found : ((ofPairs pairs).find? fun e => e.1.sameSlot p.1).isSome = true := by
    have lookup := congrArg Option.isSome (get?_ofPairs pairs p.1)
    unfold get? at lookup
    rw [Option.isSome_map, Option.isSome_map] at lookup
    rw [lookup]
    exact List.find?_isSome.mpr ⟨p, List.mem_reverse.mpr member, own⟩
  obtain ⟨e, hit⟩ := Option.isSome_iff_exists.mp found
  exact ⟨e, List.mem_of_find?_eq_some hit,
    List.find?_some (p := fun e : Scalar × Value => e.1.sameSlot p.1) hit⟩

/-- Putting related pairs into related entries keeps them related, as long as the new key falls
into the slot of each entry alike on both sides. -/
theorem forall₂_put {R : Scalar × Value → Scalar × Value → Prop} {es fs : List (Scalar × Value)}
    {p q : Scalar × Value} (entries : List.Forall₂ R es fs) (pair : R p q)
    (alike : ∀ e f, R e f → e.1.sameSlot p.1 = f.1.sameSlot q.1) :
    List.Forall₂ R (put es p.1 p.2) (put fs q.1 q.2) := by
  induction entries with
  | nil => exact .cons pair .nil
  | @cons e f es fs head tail ih =>
    obtain ⟨ke, ve⟩ := e
    obtain ⟨kf, vf⟩ := f
    have slot := alike _ _ head
    simp only [put]
    rw [slot]
    by_cases hit : kf.sameSlot q.1 = true
    · rw [if_pos hit, if_pos hit]
      exact .cons pair tail
    · rw [if_neg hit, if_neg hit]
      exact .cons head ih

/-- Folding pairs taken from one list of aligned pairs keeps entries aligned, when any two
aligned pairs share a slot on one side exactly when they do on the other. -/
theorem forall₂_foldl_put {aligned : List ((Scalar × Value) × (Scalar × Value))}
    (alike : ∀ x ∈ aligned, ∀ y ∈ aligned, x.1.1.sameSlot y.1.1 = x.2.1.sameSlot y.2.1) :
    ∀ (zs : List ((Scalar × Value) × (Scalar × Value))), (∀ z ∈ zs, z ∈ aligned) →
      ∀ {es fs : List (Scalar × Value)}, List.Forall₂ (fun e f => (e, f) ∈ aligned) es fs →
      List.Forall₂ (fun e f => (e, f) ∈ aligned)
        ((zs.map Prod.fst).foldl (fun acc p => put acc p.1 p.2) es)
        ((zs.map Prod.snd).foldl (fun acc p => put acc p.1 p.2) fs) := by
  intro zs
  induction zs with
  | nil => exact fun _ _ _ entries => entries
  | cons z zs ih =>
    intro within es fs entries
    have inside : z ∈ aligned := within z List.mem_cons_self
    simp only [List.map_cons, List.foldl_cons]
    exact ih (fun w member => within w (List.mem_cons_of_mem z member))
      (forall₂_put entries inside fun e f entry => alike (e, f) entry z inside)

/-- **Maps built from pairs aligned one to one.** When any two aligned pairs share a slot on one
side exactly when they do on the other, the two maps hold their entries in the same places, and
each two entries in one place are aligned pairs. -/
theorem forall₂_ofPairs {ps qs : List (Scalar × Value)} (lengths : ps.length = qs.length)
    (alike : ∀ x ∈ ps.zip qs, ∀ y ∈ ps.zip qs, x.1.1.sameSlot y.1.1 = x.2.1.sameSlot y.2.1) :
    List.Forall₂ (fun e f => (e, f) ∈ ps.zip qs) (ofPairs ps) (ofPairs qs) := by
  have built := forall₂_foldl_put alike (ps.zip qs) (fun _ member => member) .nil
  rwa [List.map_fst_zip (Nat.le_of_eq lengths), List.map_snd_zip (Nat.le_of_eq lengths.symm)] at built

end Entries

/-! ### Maps built from pairs of values -/

namespace Value

/-- Pairs whose keys are all scalars pass the key check as they are. -/
theorem mapM_keyed_scalars (pairs : List (Scalar × Value)) :
    (pairs.map fun p => (Value.scalar p.1, p.2)).mapM entriesOfPairs.keyed = .ok pairs := by
  induction pairs with
  | nil => rfl
  | cons p pairs ih =>
    rw [List.map_cons, List.mapM_cons, ih]
    rfl

/-- The key check stops at the first key that is not a scalar, and names its kind. -/
theorem mapM_keyed_notScalar {x v : Value} (notScalar : ∀ k, x ≠ .scalar k)
    (post : List (Value × Value)) :
    ∀ pre : List (Value × Value), (∀ p ∈ pre, ∃ k, p.1 = .scalar k) →
      (pre ++ (x, v) :: post).mapM entriesOfPairs.keyed = .error (.notScalar x.kind)
  | [], _ => by
    rw [List.nil_append, List.mapM_cons]
    cases x with
    | scalar k => exact absurd rfl (notScalar k)
    | list items => rfl
    | map entries => rfl
  | p :: pre, scalars => by
    obtain ⟨k, key⟩ := scalars p List.mem_cons_self
    have rest := mapM_keyed_notScalar (v := v) notScalar post pre
      fun q member => scalars q (List.mem_cons_of_mem p member)
    obtain ⟨key', value⟩ := p
    dsimp only at key
    subst key
    rw [List.cons_append, List.mapM_cons, rest]
    rfl

/-- **Maps built from pairs.** Two keys share a slot when their tags agree and they are loosely
equal. A key that is a list or a map stops the building, and the first such key names its kind
in the refusal. Otherwise, with no key not-a-number, the map holds one entry for each slot of
the keys, in the order in which the slots first occur, and that entry is the last pair of its
slot: so the map has as many entries as there are slots, a lookup by a scalar gives the value
of the last pair in its slot, or nothing when no pair is in it, and a lookup by a list or a map
gives nothing. -/
theorem mapOfPairs_slots (pairs : List (Value × Value)) :
    (∀ a b : Scalar, a.sameSlot b = true ↔ a.slotTag = b.slotTag ∧ a.looseEq b = true) ∧
    (∀ pre x v post, pairs = pre ++ (x, v) :: post → (∀ p ∈ pre, ∃ k, p.1 = .scalar k) →
      (∀ k, x ≠ .scalar k) →
      mapOfPairs pairs = .error (.notScalar x.kind) ∧
        ((KeyFault.notScalar x.kind).message = "unhashable map key kind: list" ∨
          (KeyFault.notScalar x.kind).message = "unhashable map key kind: map")) ∧
    ∀ ps : List (Scalar × Value), pairs = ps.map (fun p => (.scalar p.1, p.2)) →
      (∀ p ∈ ps, ∀ x, p.1 = .float x → x.isNaN = false) →
      mapOfPairs pairs = .ok (.map (Entries.ofPairs ps)) ∧
      Entries.ofPairs ps = (Entries.slotKeys ps).filterMap (Entries.lastInSlot ps) ∧
      (Entries.slotKeys ps).Pairwise (fun a b => a.sameSlot b = false) ∧
      (∀ p ∈ ps, ∃ k ∈ Entries.slotKeys ps, k.sameSlot p.1 = true) ∧
      (Entries.ofPairs ps).length = (Entries.slotKeys ps).length ∧
      (∀ k, Entries.lookup (Entries.ofPairs ps) (.scalar k) =
        (Entries.lastInSlot ps k).map Prod.snd) ∧
      (∀ x, (∀ k, x ≠ .scalar k) → Entries.lookup (Entries.ofPairs ps) x = none) := by
  refine ⟨Scalar.sameSlot_iff, fun pre x v post split scalars notScalar => ?_,
    fun ps spelled numbers => ?_⟩
  · -- a key that is no scalar is a list or a map, and its kind is named
    refine ⟨?_, ?_⟩
    · rw [mapOfPairs, entriesOfPairs, split, mapM_keyed_notScalar notScalar post pre scalars]
      rfl
    · cases x with
      | scalar k => exact absurd rfl (notScalar k)
      | list items => exact .inl rfl
      | map entries => exact .inr rfl
  · have selfSlots : ∀ p ∈ ps, p.1.sameSlot p.1 = true :=
      fun p member => Scalar.sameSlot_self (numbers p member)
    refine ⟨?_, Entries.ofPairs_eq_slots selfSlots, Entries.slotKeys_pairwise ps,
      fun p member => Entries.exists_slotKey selfSlots member, Entries.length_ofPairs selfSlots,
      fun k => Entries.get?_ofPairs ps k, fun x notScalar => ?_⟩
    · rw [mapOfPairs, entriesOfPairs, spelled, mapM_keyed_scalars]
      rfl
    · cases x with
      | scalar k => exact absurd rfl (notScalar k)
      | list items => rfl
      | map entries => rfl

end Value

end Ingest
