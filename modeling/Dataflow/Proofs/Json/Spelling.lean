import Dataflow.Proofs.Json.Decoding
import Mathlib.Data.List.Nodup

/-!
# Other spellings of a value

A record can be written with its members in any order, and members that hold their defaults can be
left off (`Json.Spells`).  A decoder that takes apart every spelling of what an encoder puts
together is said to respell it (`Respells`).

**Records.**  A decoder of records goes through the members of an object.  Which fields are filled
depends on the keys that it has met, and on nothing else (`filled`, `visit_eq`).

**Kept values.**  A spelling can be kept where the value could: it nests no more containers
(`Json.Spells.check`).
-/

namespace Dataflow

section Relation

/-- The second value is a way to write the first.  Members of objects are in any order, and members
in `defaults` may be left off. -/
inductive Json.Spells (defaults : List (String × Json)) : Json → Json → Prop
  | same (j : Json) : Spells defaults j j
  | array {l l' : List Json} : l.length = l'.length →
      (∀ p ∈ l.zip l', Spells defaults p.1 p.2) →
        Spells defaults (.arr (.ofList l)) (.arr (.ofList l'))
  | object {l l' : List (String × Json)} : (l'.map Prod.fst).Nodup →
      (∀ m ∈ l', m.1 ∈ l.map Prod.fst) →
      (∀ k v v', (k, v) ∈ l → (k, v') ∈ l' → Spells defaults v v') →
      (∀ m ∈ l, m.1 ∉ l'.map Prod.fst → m ∈ defaults) →
      Spells defaults (.obj (.ofList l)) (.obj (.ofList l'))

/-- A member stands among others, in some spelling, or is left off. -/
def Meets (defaults l : List (String × Json)) (m : String × Json) : Prop :=
  (∃ v, (m.1, v) ∈ l ∧ m.2.Spells defaults v) ∨ m.1 ∉ l.map Prod.fst ∧ m ∈ defaults

theorem Items.ofList_inj {l l' : List Json} (h : Items.ofList l = Items.ofList l') : l = l' := by
  induction l generalizing l' with
  | nil =>
      cases l' with
      | nil => rfl
      | cons _ _ => cases h
  | cons j l ih =>
      cases l' with
      | nil => cases h
      | cons j' l' =>
          rw [Items.ofList, Items.ofList, Items.cons.injEq] at h
          rw [h.1, ih h.2]

@[simp] theorem Json.array_inj {l l' : List Json} : Json.array l = Json.array l' ↔ l = l' :=
  ⟨fun h => Items.ofList_inj (Json.arr.inj h), fun h => congrArg Json.array h⟩

theorem Json.orNull_eq_null {α : Type} {encode : α → Json} (hnull : ∀ a, encode a ≠ .null)
    {o : Option α} : Json.orNull encode o = .null ↔ o = none := by
  cases o with
  | none => exact ⟨fun _ => rfl, fun _ => rfl⟩
  | some a => exact ⟨fun h => absurd h (hnull a), nofun⟩

theorem Fields.ofList_inj {l l' : List (String × Json)} (h : Fields.ofList l = Fields.ofList l') :
    l = l' := by
  induction l generalizing l' with
  | nil =>
      cases l' with
      | nil => rfl
      | cons _ _ => cases h
  | cons m l ih =>
      cases l' with
      | nil => cases h
      | cons m' l' =>
          rw [Fields.ofList, Fields.ofList, Fields.cons.injEq, Option.some.injEq] at h
          rw [Prod.ext h.1 h.2.1, ih h.2.2]

namespace Json.Spells

variable {defaults : List (String × Json)} {j : Json}

theorem array_iff {l : List Json} :
    (Json.array l).Spells defaults j ↔
      ∃ l', j = .array l' ∧ l.length = l'.length ∧ ∀ p ∈ l.zip l', p.1.Spells defaults p.2 := by
  constructor
  · intro h
    generalize hvalue : Json.array l = v at h
    cases h with
    | same =>
        refine ⟨l, hvalue.symm, rfl, ?_⟩
        intro p hp
        rw [List.zip_eq_zipWith, List.zipWith_self] at hp
        obtain ⟨x, -, rfl⟩ := List.mem_map.mp hp
        exact .same x
    | @array m m' hlength helems =>
        cases Json.array_inj.mp hvalue
        exact ⟨m', rfl, hlength, helems⟩
    | object _ _ _ _ => cases hvalue
  · rintro ⟨l', rfl, hlength, helems⟩
    exact .array hlength helems

/-- The members of a spelling of an object: each has a key of the object, once, and each member of
the object is there or holds its default. -/
theorem exists_object {l : List (String × Json)} (hl : (l.map Prod.fst).Nodup)
    (h : (Json.object l).Spells defaults j) :
    ∃ l', j = .object l' ∧ (l'.map Prod.fst).Nodup ∧ (∀ m ∈ l', m.1 ∈ l.map Prod.fst) ∧
      ∀ m ∈ l, Meets defaults l' m := by
  generalize hvalue : Json.object l = v at h
  cases h with
  | same =>
      refine ⟨l, hvalue.symm, hl, fun m hm => List.mem_map_of_mem hm, ?_⟩
      intro m hm
      exact .inl ⟨m.2, hm, .same _⟩
  | array _ _ => cases hvalue
  | @object l₁ l' honce hknown hvalues hleft =>
      cases Fields.ofList_inj (Json.obj.inj hvalue)
      refine ⟨l', rfl, honce, hknown, ?_⟩
      intro m hm
      by_cases hkey : m.1 ∈ l'.map Prod.fst
      · obtain ⟨⟨k, v'⟩, hv', heq⟩ := List.mem_map.mp hkey
        have hv' : (m.1, v') ∈ l' := heq ▸ hv'
        exact .inl ⟨v', hv', hvalues m.1 m.2 v' hm hv'⟩
      · exact .inr ⟨hkey, hleft m hm hkey⟩

/-- Members as they stand, in any order and without some defaults, are a spelling. -/
theorem of_subset {l l' : List (String × Json)} (hl : (l.map Prod.fst).Nodup)
    (hl' : (l'.map Prod.fst).Nodup) (hsub : ∀ m ∈ l', m ∈ l)
    (hleft : ∀ m ∈ l, m ∈ l' ∨ m ∈ defaults) :
    (Json.object l).Spells defaults (Json.object l') := by
  refine .object hl' (fun m hm => List.mem_map_of_mem (hsub m hm)) ?_ ?_
  · intro k v v' hv hv'
    cases List.inj_on_of_nodup_map hl hv (hsub _ hv') rfl
    exact .same v
  · intro m hm hkey
    exact (hleft m hm).resolve_left fun hm' => hkey (List.mem_map_of_mem hm')

/-- A value without elements or members has one spelling. -/
theorem eq_of_leaf {leaf : Json} (h : leaf.Spells defaults j) (harr : ∀ items, leaf ≠ .arr items)
    (hobj : ∀ fields, leaf ≠ .obj fields) : j = leaf := by
  cases h with
  | same => rfl
  | array _ _ => exact absurd rfl (harr _)
  | object _ _ _ _ => exact absurd rfl (hobj _)

theorem eq_null (h : Json.null.Spells defaults j) : j = .null := h.eq_of_leaf nofun nofun

theorem eq_text {s : String} (h : (Json.text s).Spells defaults j) : j = .text s :=
  h.eq_of_leaf nofun nofun

theorem ne_null {v : Json} (hv : v ≠ .null) (h : v.Spells defaults j) : j ≠ .null := by
  cases h with
  | same => exact hv
  | array _ _ => exact nofun
  | object _ _ _ _ => exact nofun

end Json.Spells

end Relation

section Kept

variable {defaults : List (String × Json)} {j j' : Json}

theorem Json.check_array {room : Nat} {l : List Json} :
    (Json.array l).check (room + 1) = .ok () ↔ ∀ j ∈ l, j.check room = .ok () := by
  rw [Json.array, Json.check]
  induction l with
  | nil => exact ⟨fun _ => List.forall_mem_nil _, fun _ => rfl⟩
  | cons j l ih =>
      rw [List.forall_mem_cons, ← ih, Items.ofList, Items.check]
      constructor
      · intro h
        obtain ⟨_, hj, h⟩ := bind_eq_ok_iff.mp h
        exact ⟨hj, h⟩
      · rintro ⟨hj, h⟩
        exact bind_eq_ok_iff.mpr ⟨(), hj, h⟩

theorem Json.check_object {room : Nat} {l : List (String × Json)} :
    (Json.object l).check (room + 1) = .ok () ↔ ∀ m ∈ l, m.2.check room = .ok () := by
  rw [Json.object, Json.check]
  induction l with
  | nil => exact ⟨fun _ => List.forall_mem_nil _, fun _ => rfl⟩
  | cons m l ih =>
      rw [List.forall_mem_cons, ← ih, Fields.ofList, Fields.check]
      constructor
      · intro h
        obtain ⟨_, hm, h⟩ := bind_eq_ok_iff.mp h
        exact ⟨hm, h⟩
      · rintro ⟨hm, h⟩
        exact bind_eq_ok_iff.mpr ⟨(), hm, h⟩

/-- An element of a spelling spells an element. -/
theorem exists_zip_of_mem {l l' : List Json} (hlength : l.length = l'.length) (hj : j' ∈ l') :
    ∃ j ∈ l, (j, j') ∈ l.zip l' := by
  have hsnd : (l.zip l').map Prod.snd = l' := List.map_snd_zip (by omega)
  rw [← hsnd] at hj
  obtain ⟨p, hp, rfl⟩ := List.mem_map.mp hj
  exact ⟨p.1, (List.of_mem_zip hp).1, hp⟩

/-- A spelling nests no more containers. -/
theorem Json.Spells.check (h : j.Spells defaults j') {room : Nat} (hj : j.check room = .ok ()) :
    j'.check room = .ok () := by
  induction h generalizing room with
  | same => exact hj
  | @array l l' hlength _ ih =>
      cases room with
      | zero => cases hj
      | succ room =>
          refine Json.check_array.mpr fun x hx => ?_
          obtain ⟨y, hy, hp⟩ := exists_zip_of_mem hlength hx
          exact ih _ hp (Json.check_array.mp hj y hy)
  | @object l l' _ hknown _ _ ih =>
      cases room with
      | zero => cases hj
      | succ room =>
          refine Json.check_object.mpr fun m' hm' => ?_
          obtain ⟨⟨k, v⟩, hm, hkey⟩ := List.mem_map.mp (hknown m' hm')
          exact ih k v m'.2 hm (by rw [show k = m'.1 from hkey]; exact hm')
            (Json.check_object.mp hj _ hm)

end Kept

section Decoders

variable {α : Type} {defaults : List (String × Json)} {decode : Json → Decoded α}
  {encode : α → Json}

/-- A decoder takes apart every spelling of what an encoder puts together. -/
def Respells (defaults : List (String × Json)) (decode : Json → Decoded α) (encode : α → Json) :
    Prop :=
  ∀ a j, (encode a).Spells defaults j → decode j = .ok a

namespace Respells

/-- What is written without elements or members has one spelling. -/
theorem leaf (h : ∀ a, decode (encode a) = .ok a) (harr : ∀ a items, encode a ≠ .arr items)
    (hobj : ∀ a fields, encode a ≠ .obj fields) : Respells defaults decode encode := by
  intro a j hj
  rw [hj.eq_of_leaf (harr a) (hobj a)]
  exact h a

theorem list (h : Respells defaults decode encode) :
    Respells defaults (Json.list decode) fun l => Json.array (l.map encode) := by
  intro l j hj
  obtain ⟨l', rfl, hlength, helems⟩ := Json.Spells.array_iff.mp hj
  rw [Json.array, Json.list]
  clear hj
  induction l generalizing l' with
  | nil =>
      cases l' with
      | nil => rfl
      | cons _ _ => cases hlength
  | cons a l ih =>
      cases l' with
      | nil => cases hlength
      | cons j l' =>
          have hhead := h a j (helems _ List.mem_cons_self)
          have htail :=
            ih l' (Nat.succ.inj hlength) fun p hp => helems p (List.mem_cons_of_mem _ hp)
          rw [Items.ofList, Items.decode, hhead, ok_bind, htail]
          rfl

theorem optional (h : Respells defaults decode encode) (hnull : ∀ a, encode a ≠ .null) :
    Respells defaults (Json.optional decode) (Json.orNull encode) := by
  intro o j hj
  cases o with
  | none =>
      rw [Json.Spells.eq_null hj]
      rfl
  | some a =>
      rw [Json.optional, h a j hj]
      · rfl
      · exact hj.ne_null (hnull a)

end Respells

end Decoders

section Records

variable {α σ : Type} {l done : List (String × Json)} {key : String} {a : α}

/-- A field of a record, after some members: filled if its key was among them. -/
def filled (done : List (String × Json)) (key : String) (a : α) : Option α :=
  if key ∈ done.map Prod.fst then some a else none

/-- The next member fills the field with its key. -/
@[simp] theorem filled_append (m : String × Json) :
    filled (done ++ [m]) key a = if key = m.1 then some a else filled done key a := by
  have hmem : key ∈ (done ++ [m]).map Prod.fst ↔ key = m.1 ∨ key ∈ done.map Prod.fst := by
    simp [or_comm]
  simp only [filled, hmem]
  by_cases hkey : key = m.1 <;> simp only [hkey, true_or, false_or, if_true, if_false]

/-- Members with one key, none of them twice. -/
theorem eq_singleton_of_key {v : Json} (honce : (l.map Prod.fst).Nodup) (hv : (key, v) ∈ l)
    (hkeys : ∀ m ∈ l, m.1 = key) : l = [(key, v)] := by
  refine List.Perm.eq_singleton
    ((List.perm_ext_iff_of_nodup (honce.of_map _) (List.nodup_singleton _)).mpr ?_)
  intro m
  rw [List.mem_singleton]
  constructor
  · intro hm
    exact List.inj_on_of_nodup_map honce hm hv (hkeys m hm)
  · rintro rfl
    exact hv

namespace Meets

variable {defaults : List (String × Json)} {v v' : Json}

/-- A value that stands for a member spells it. -/
theorem spells (h : Meets defaults l (key, v)) (honce : (l.map Prod.fst).Nodup)
    (hv : (key, v') ∈ l) : v.Spells defaults v' := by
  obtain ⟨w, hw, hspells⟩ | ⟨hno, -⟩ := h
  · cases List.inj_on_of_nodup_map honce hv hw rfl
    exact hspells
  · exact absurd (List.mem_map_of_mem hv) hno

/-- An object of one member, which cannot be left off. -/
theorem eq_singleton (h : Meets defaults l (key, v)) (honce : (l.map Prod.fst).Nodup)
    (hknown : ∀ m ∈ l, m.1 ∈ [key]) (hno : (key, v) ∉ defaults) :
    ∃ v', l = [(key, v')] ∧ v.Spells defaults v' := by
  obtain ⟨v', hv', hspells⟩ | ⟨-, hdefault⟩ := h
  · exact ⟨v', eq_singleton_of_key honce hv' fun m hm => List.mem_singleton.mp (hknown m hm),
      hspells⟩
  · exact absurd hdefault hno

/-- A field without a default is filled. -/
theorem required_filled (h : Meets defaults l (key, v)) (hno : (key, v) ∉ defaults) :
    required (filled l key a) = .ok a := by
  obtain ⟨w, hw, -⟩ | ⟨-, hdefault⟩ := h
  · rw [filled, if_pos (List.mem_map_of_mem hw)]
    rfl
  · exact absurd hdefault hno

/-- A field with a default is filled, or holds it. -/
theorem getD_filled (h : Meets defaults l (key, v)) {default : α}
    (hdefault : (key, v) ∈ defaults → a = default) : (filled l key a).getD default = a := by
  obtain ⟨w, hw, -⟩ | ⟨hno, hmem⟩ := h
  · rw [filled, if_pos (List.mem_map_of_mem hw)]
    rfl
  · rw [filled, if_neg hno]
    exact (hdefault hmem).symm

/-- An option that may be left off if it is absent. -/
theorem getD_optional {encode : α → Json} {o : Option α}
    (h : Meets defaults l (key, Json.orNull encode o)) (hnull : ∀ a, encode a ≠ .null)
    (hdefault : ∀ v, (key, v) ∈ defaults → v = .null) : (filled l key o).getD none = o :=
  h.getD_filled fun hmem => (Json.orNull_eq_null hnull).mp (hdefault _ hmem)

/-- A list that may be left off if it is empty. -/
theorem getD_list {encode : α → Json} {as : List α}
    (h : Meets defaults l (key, Json.array (as.map encode)))
    (hdefault : ∀ v, (key, v) ∈ defaults → v = .array []) : (filled l key as).getD [] = as :=
  h.getD_filled fun hmem => List.map_eq_nil_iff.mp (Json.array_inj.mp (hdefault _ hmem))

end Meets

/-- The member with a key fills its field. -/
theorem Respells.fill {defaults : List (String × Json)} {decode : Json → Decoded α}
    {encode : α → Json} (h : Respells defaults decode encode) {v : Json}
    (hkey : Meets defaults l (key, encode a)) (honce : (l.map Prod.fst).Nodup) (hv : (key, v) ∈ l)
    (hfree : key ∉ done.map Prod.fst) :
    Dataflow.fillOnce (filled done key a) decode v = .ok (some a) := by
  rw [filled, if_neg hfree, Dataflow.fillOnce, h a v (hkey.spells honce hv)]
  rfl

/-- A walk through members with known keys, none of them twice, where the state depends on
the members met. -/
theorem visit_eq {keys : List String} (honce : (l.map Prod.fst).Nodup)
    (hknown : ∀ m ∈ l, m.1 ∈ keys) {step : σ → String → Json → Option (Decoded σ)} {start : σ}
    (st : List (String × Json) → σ) (hstart : st [] = start)
    (hstep : ∀ k ∈ keys, ∀ v done, (k, v) ∈ l → k ∉ done.map Prod.fst →
      step (st done) k v = some (.ok (st (done ++ [(k, v)])))) :
    (Fields.ofList l).visit step start = .ok (st l) := by
  have hrest :
      ∀ rest done, l = done ++ rest → (Fields.ofList rest).visit step (st done) = .ok (st l) := by
    intro rest
    induction rest with
    | nil =>
        intro done h
        rw [h, List.append_nil]
        rfl
    | cons m rest ih =>
        intro done h
        have hmem : m ∈ l := by simp [h]
        have hfree : m.1 ∉ done.map Prod.fst := by
          rw [h, List.map_append, List.nodup_append] at honce
          exact fun hdone => honce.2.2 _ hdone _ (by simp) rfl
        rw [Fields.ofList, Fields.visit, hstep m.1 (hknown m hmem) m.2 done hmem hfree]
        exact ih (done ++ [m]) (by rw [h, List.append_assoc]; rfl)
  rw [← hstart]
  exact hrest l [] rfl

end Records

end Dataflow
