import Surety.Proofs.Merkle.Position

/-!
# Changed proofs

What a leaf and its proof lead to changes with the leaf and with every sibling, unless two different
strings with the same hash turn up among the strings that are hashed.  No tree is involved: the proofs are
any lists of hashes.

* `children_of_pairPreimage_eq` says what two levels have in common that hash the same string.
* `DifferOnce.climb_or_collision` carries a single change up by one level;
  `DifferOnce.foldProof_ne_or_collision` carries it to the end of the proof.
* `eq_or_collision_of_foldProof_positional` says that the sides told by an index leave nothing open.
* `tampering_evident` is the result.

With sorted pairs only a single change is noticed for sure: a leaf that changes places with its first
sibling leads to the same hash.
-/

namespace Surety.Merkle

/-! ## A single change -/

/-- Two lists differ in exactly one place. -/
def DifferOnce (first second : List Digest) : Prop :=
  ∃! place : Nat, first[place]? ≠ second[place]?

theorem not_differOnce_self (list : List Digest) : ¬DifferOnce list list := by
  rintro ⟨place, hne, -⟩
  exact hne rfl

/-- A single change is at the front or behind it. -/
theorem differOnce_cons_iff {a b : Digest} {first second : List Digest} :
    DifferOnce (a :: first) (b :: second) ↔
      a ≠ b ∧ first = second ∨ a = b ∧ DifferOnce first second := by
  constructor
  · rintro ⟨place, hne, honly⟩
    cases place with
    | zero =>
        refine .inl ⟨fun hsame => hne (congrArg some hsame), List.ext_getElem? fun k => ?_⟩
        by_contra hlater
        exact absurd (honly (k + 1) hlater) k.succ_ne_zero
    | succ place =>
        have hsame : a = b := by
          by_contra hfront
          exact absurd (honly 0 (mt Option.some.inj hfront)) (Nat.zero_ne_add_one place)
        exact .inr ⟨hsame, place, hne, fun k hk => Nat.succ.inj (honly (k + 1) hk)⟩
  · rintro (⟨hne, rfl⟩ | ⟨rfl, place, hne, honly⟩)
    · refine ⟨0, mt Option.some.inj hne, fun k hk => ?_⟩
      cases k with
      | zero => rfl
      | succ k => exact absurd rfl hk
    · refine ⟨place + 1, hne, fun k hk => ?_⟩
      cases k with
      | zero => exact absurd rfl hk
      | succ k => rw [honly k hk]

/-! ## One level -/

section

variable {order : SiblingOrder} {leafIndex : UInt64} {level : Nat} {strings : List Bytes}
  {accumulated accumulated' sibling sibling' : Digest} {proof proof' : List Digest}

/-- Two levels that hash the same string have the same two hashes, in one order or the other. -/
theorem children_of_pairPreimage_eq
    (h : pairPreimage order level accumulated sibling
      = pairPreimage order level accumulated' sibling') :
    accumulated = accumulated' ∧ sibling = sibling' ∨
      accumulated = sibling' ∧ sibling = accumulated' := by
  obtain ⟨hleft, hright⟩ := nodePreimage_injective h
  rcases order.arrange_cases level accumulated sibling with hfirst | hfirst <;>
    rcases order.arrange_cases level accumulated' sibling' with hsecond | hsecond <;>
    rw [hfirst, hsecond] at hleft hright
  · exact .inl ⟨hleft, hright⟩
  · exact .inr ⟨hleft, hright⟩
  · exact .inr ⟨hright, hleft⟩
  · exact .inl ⟨hright, hleft⟩

/-- With the sides told by an index, the string that a level hashes determines both hashes. -/
theorem children_of_pairPreimage_positional_eq
    (h : pairPreimage (.positional leafIndex) level accumulated sibling
      = pairPreimage (.positional leafIndex) level accumulated' sibling') :
    accumulated = accumulated' ∧ sibling = sibling' := by
  rw [pairPreimage_positional, pairPreimage_positional] at h
  split at h
  · exact (nodePreimage_injective h).symm
  · exact nodePreimage_injective h

/-- When a level hashes another string, the hash above it is changed alone, or there is a collision. -/
theorem differOnce_or_collision_of_ne (proof : List Digest)
    (hne : pairPreimage order level accumulated sibling
      ≠ pairPreimage order level accumulated' sibling')
    (hstring : pairPreimage order level accumulated sibling ∈ strings)
    (hstring' : pairPreimage order level accumulated' sibling' ∈ strings) :
    DifferOnce (pairHash order level accumulated sibling :: proof)
        (pairHash order level accumulated' sibling' :: proof) ∨
      Sha256.Collision strings := by
  by_cases hhash : pairHash order level accumulated sibling
      = pairHash order level accumulated' sibling'
  · exact .inr ((Sha256.eq_or_collision hstring hstring' hhash).resolve_left hne)
  · exact .inl (differOnce_cons_iff.2 (.inl ⟨hhash, rfl⟩))

/-- A single change at a level or above is still one after the level, or there is a collision. -/
theorem DifferOnce.climb_or_collision
    (h : DifferOnce (accumulated :: sibling :: proof) (accumulated' :: sibling' :: proof'))
    (hstring : pairPreimage order level accumulated sibling ∈ strings)
    (hstring' : pairPreimage order level accumulated' sibling' ∈ strings) :
    DifferOnce (pairHash order level accumulated sibling :: proof)
        (pairHash order level accumulated' sibling' :: proof') ∨
      Sha256.Collision strings := by
  rcases differOnce_cons_iff.1 h with ⟨hne, habove⟩ | ⟨rfl, habove⟩
  · obtain ⟨rfl, rfl⟩ := List.cons.inj habove
    refine differOnce_or_collision_of_ne proof (fun heq => hne ?_) hstring hstring'
    -- also where the pair is swapped, the one hash that is the same leaves no room for a change
    rcases children_of_pairPreimage_eq heq with ⟨hsame, -⟩ | ⟨hsame, hswap⟩
    · exact hsame
    · exact hsame.trans hswap
  · rcases differOnce_cons_iff.1 habove with ⟨hne, rfl⟩ | ⟨rfl, hrest⟩
    · refine differOnce_or_collision_of_ne proof (fun heq => hne ?_) hstring hstring'
      rcases children_of_pairPreimage_eq heq with ⟨-, hsame⟩ | ⟨hsame, hswap⟩
      · exact hsame
      · exact hswap.trans hsame
    · exact .inl (differOnce_cons_iff.2 (.inr ⟨rfl, hrest⟩))

/-! ## Whole proofs -/

/-- After a single change a proof leads elsewhere, or there is a collision. -/
theorem DifferOnce.foldProof_ne_or_collision (hlength : proof.length = proof'.length)
    (h : DifferOnce (accumulated :: proof) (accumulated' :: proof'))
    (hfold : foldPreimages order level accumulated proof ⊆ strings)
    (hfold' : foldPreimages order level accumulated' proof' ⊆ strings) :
    foldProof order level accumulated proof ≠ foldProof order level accumulated' proof' ∨
      Sha256.Collision strings := by
  induction proof generalizing level accumulated accumulated' proof' with
  | nil =>
      obtain rfl := List.length_eq_zero_iff.1 hlength.symm
      rcases differOnce_cons_iff.1 h with ⟨hne, -⟩ | ⟨-, hnone⟩
      · exact .inl hne
      · exact absurd hnone (not_differOnce_self [])
  | cons sibling rest ih =>
      obtain ⟨sibling', rest', rfl⟩ := List.exists_cons_of_length_eq_add_one hlength.symm
      obtain ⟨hstring, hrest⟩ := List.cons_subset.1 hfold
      obtain ⟨hstring', hrest'⟩ := List.cons_subset.1 hfold'
      rcases h.climb_or_collision hstring hstring' with hnext | hcollision
      · exact ih (Nat.succ.inj hlength) hnext hrest hrest'
      · exact .inr hcollision

/-- Two proofs of one length that lead to one hash by the same index start from the same hash and are the
same, or there is a collision. -/
theorem eq_or_collision_of_foldProof_positional (hlength : proof.length = proof'.length)
    (hfold : foldPreimages (.positional leafIndex) level accumulated proof ⊆ strings)
    (hfold' : foldPreimages (.positional leafIndex) level accumulated' proof' ⊆ strings)
    (h : foldProof (.positional leafIndex) level accumulated proof
      = foldProof (.positional leafIndex) level accumulated' proof') :
    accumulated = accumulated' ∧ proof = proof' ∨ Sha256.Collision strings := by
  induction proof generalizing level accumulated accumulated' proof' with
  | nil =>
      obtain rfl := List.length_eq_zero_iff.1 hlength.symm
      exact .inl ⟨h, rfl⟩
  | cons sibling rest ih =>
      obtain ⟨sibling', rest', rfl⟩ := List.exists_cons_of_length_eq_add_one hlength.symm
      obtain ⟨hstring, hrest⟩ := List.cons_subset.1 hfold
      obtain ⟨hstring', hrest'⟩ := List.cons_subset.1 hfold'
      rcases ih (Nat.succ.inj hlength) hrest hrest' h with ⟨hhash, rfl⟩ | hcollision
      · refine (Sha256.eq_or_collision hstring hstring' hhash).imp_left fun hsame => ?_
        obtain ⟨rfl, rfl⟩ := children_of_pairPreimage_positional_eq hsame
        exact ⟨rfl, rfl⟩
      · exact .inr hcollision

end

/-- A leaf and a proof that lead to a root by the sorted order no longer do so after exactly one of these
hashes has been changed; by the bits of an index no other leaf and proof of the same length lead there; or
two different strings with the same hash are found among those hashed along the two proofs.  By the sorted
order a leaf can always change places with its first sibling. -/
theorem tampering_evident {leaf leaf' : Digest} {proof proof' : List Digest}
    (hlength : proof.length = proof'.length) (root : Digest) :
    (verifyProof leaf proof root = true → DifferOnce (leaf :: proof) (leaf' :: proof') →
      verifyProof leaf' proof' root = false ∨
        Sha256.Collision (foldPreimages .sorted 0 leaf proof
          ++ foldPreimages .sorted 0 leaf' proof')) ∧
    (∀ leafIndex : UInt64,
      verifyWithOrder (.positional leafIndex) leaf proof root = true →
      verifyWithOrder (.positional leafIndex) leaf' proof' root = true →
        (leaf = leaf' ∧ proof = proof') ∨
          Sha256.Collision (foldPreimages (.positional leafIndex) 0 leaf proof
            ++ foldPreimages (.positional leafIndex) 0 leaf' proof')) ∧
    ∀ sibling : Digest,
      verifyProof sibling (leaf :: proof) root = verifyProof leaf (sibling :: proof) root := by
  refine ⟨fun hverify honce => ?_, fun leafIndex hverify hverify' => ?_, fun sibling => ?_⟩
  · refine (honce.foldProof_ne_or_collision hlength (List.subset_append_left _ _)
      (List.subset_append_right _ _)).imp_left fun hne => ?_
    rw [verifyProof, Bool.eq_false_iff, Ne, verifyWithOrder_iff]
    exact fun hlead => hne ((verifyWithOrder_iff.1 hverify).trans hlead.symm)
  · exact eq_or_collision_of_foldProof_positional hlength (List.subset_append_left _ _)
      (List.subset_append_right _ _)
      ((verifyWithOrder_iff.1 hverify).trans (verifyWithOrder_iff.1 hverify').symm)
  · rw [verifyProof, verifyProof, verifyWithOrder, verifyWithOrder, foldProof, foldProof,
      pairHash_sorted, pairHash_sorted, parent_sorted_comm]

/-- A changed sibling is noticed although the leaf becomes the other child; the two strings that are hashed
do not collide. -/
theorem changed_sibling_refused :
    let hash (n : UInt8) : Digest := ⟨List.replicate 32 n, List.length_replicate⟩
    let root := nodeHash (hash 2) (hash 3)
    [hash 2].length = [hash 4].length ∧ verifyProof (hash 3) [hash 2] root = true ∧
      DifferOnce [hash 3, hash 2] [hash 3, hash 4] ∧ verifyProof (hash 3) [hash 4] root = false := by
  intro hash root
  let table : List Bytes := [nodePreimage (hash 2) (hash 3), nodePreimage (hash 3) (hash 4)]
  have hlength : [hash 2].length = [hash 4].length := rfl
  have hverify : verifyProof (hash 3) [hash 2] root = true := verifyWithOrder_iff.2 (Eq.refl root)
  have honce : DifferOnce [hash 3, hash 2] [hash 3, hash 4] :=
    differOnce_cons_iff.2 (.inr ⟨rfl, differOnce_cons_iff.2 (.inl ⟨by decide, rfl⟩)⟩)
  have hstrings : foldPreimages .sorted 0 (hash 3) [hash 2]
      ++ foldPreimages .sorted 0 (hash 3) [hash 4] = table := rfl
  -- the hashes differ in their first bytes
  have hbytes : (table.map Sha256.hash).map (fun digest => digest.toList.headD 0) = [247, 198] := by
    decide +kernel
  have hnodup : ((table.map Sha256.hash).map (fun digest => digest.toList.headD 0)).Nodup := by
    rw [hbytes]
    decide
  obtain ⟨hrefused, -⟩ := tampering_evident hlength root
  refine ⟨hlength, hverify, honce, (hrefused hverify honce).resolve_right ?_⟩
  rw [hstrings]
  exact Sha256.not_collision_of_nodup (List.Subset.refl _) (.of_map _ hnodup)

end Surety.Merkle
