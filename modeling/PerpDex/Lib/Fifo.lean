import PerpDex.Lib.Run

/-! A keyed store that remembers in which order its keys were admitted and drops the oldest
key when there are too many.
What it holds under a key is what has been filed there since the key was last admitted.
-/

namespace PerpDex.Fifo

/-- Values by key, and the keys from the oldest on. -/
structure Store (κ ν : Type) where
  byKey : κ → Option (List ν)
  order : List κ

section Insert

variable {κ ν : Type} [DecidableEq κ] (limit : Nat)

def Store.empty : Store κ ν where
  byKey := fun _ => none
  order := []

/-- Drops the oldest keys until no more than the limit are left. -/
def evict (byKey : κ → Option (List ν)) : List κ → Store κ ν
  | [] => { byKey, order := [] }
  | oldest :: rest =>
      if limit < rest.length + 1 then evict (Function.update byKey oldest none) rest
      else { byKey, order := oldest :: rest }

/-- Files a value, admitting its key if it is not held. -/
def Store.insert (store : Store κ ν) (key : κ) (value : ν) : Store κ ν :=
  evict limit
    (Function.update store.byKey key (some ((store.byKey key).getD [] ++ [value])))
    (if (store.byKey key).isNone then store.order ++ [key] else store.order)

/-- One filing of a run. -/
def step (store : Store κ ν) (filing : κ × ν) : Store κ ν :=
  store.insert limit filing.1 filing.2

/-- The store after filings into an empty one. -/
def gathered (filings : List (κ × ν)) : Store κ ν := filings.foldl (step limit) .empty

/-- Admitting a key drops another: the store is full and the other is its oldest. -/
def Drops (lost : κ) (store : Store κ ν) (filing : κ × ν) : Prop :=
  store.byKey filing.1 = none ∧ store.order.length = limit ∧ store.order.head? = some lost

/-- The keys that filings admit, as they come. -/
def admitted (store : Store κ ν) : List (κ × ν) → List κ
  | [] => []
  | filing :: rest =>
      (if (store.byKey filing.1).isNone then [filing.1] else [])
        ++ admitted (step limit store filing) rest

/-- What filings put under a key, in order. -/
def filed (key : κ) (filings : List (κ × ν)) : List ν :=
  (filings.filter (fun filing => filing.1 = key)).map Prod.snd

end Insert

section Coherence

variable {κ ν : Type} [DecidableEq κ] {limit : Nat} {store : Store κ ν}

/-- The order lists every held key once, and no more keys than the limit. -/
structure Coherent (limit : Nat) (store : Store κ ν) : Prop where
  nodup : store.order.Nodup
  held_iff : ∀ key, (store.byKey key).isSome ↔ key ∈ store.order
  bounded : store.order.length ≤ limit

theorem evict_of_le (byKey : κ → Option (List ν)) {order : List κ}
    (few : order.length ≤ limit)
    : evict limit byKey order = { byKey, order } := by
  cases order with
  | nil => rfl
  | cons oldest rest =>
      have inside : ¬ limit < rest.length + 1 := Nat.not_lt.mpr few
      rw [evict, if_neg inside]

/-- One key too many costs the oldest. -/
theorem evict_of_succ (byKey : κ → Option (List ν)) {oldest : κ} {rest : List κ}
    (full : rest.length = limit)
    : evict limit byKey (oldest :: rest)
      = { byKey := Function.update byKey oldest none, order := rest } := by
  rw [evict, if_pos (by omega), evict_of_le _ full.le]

/-- Filing under a held key. -/
theorem Coherent.insert_held (coherent : Coherent limit store) {key : κ} {held : List ν}
    (isHeld : store.byKey key = some held) (value : ν)
    : store.insert limit key value
      = { store with byKey := Function.update store.byKey key (some (held ++ [value])) } := by
  rw [Store.insert, isHeld]
  exact evict_of_le _ coherent.bounded

/-- Filing under a new key while there is room. -/
theorem insert_room {key : κ} (isNew : store.byKey key = none)
    (room : store.order.length < limit) (value : ν)
    : store.insert limit key value = {
        byKey := Function.update store.byKey key (some [value]), order := store.order ++ [key]
      } := by
  rw [Store.insert, isNew]
  show evict limit _ (store.order ++ [key]) = _
  refine evict_of_le _ ?_
  rw [List.length_append]
  exact room

/-- Filing under a new key when there is none. -/
theorem insert_full {key : κ} (isNew : store.byKey key = none) {oldest : κ} {rest : List κ}
    (ordered : store.order = oldest :: rest) (full : store.order.length = limit) (value : ν)
    : store.insert limit key value = {
        byKey := Function.update (Function.update store.byKey key (some [value])) oldest none,
        order := rest ++ [key]
      } := by
  rw [Store.insert, isNew, ordered]
  show evict limit _ (oldest :: (rest ++ [key])) = _
  refine evict_of_succ _ ?_
  rw [List.length_append, ← full, ordered]
  rfl

omit [DecidableEq κ] in
theorem Coherent.not_mem (coherent : Coherent limit store) {key : κ}
    (isNew : store.byKey key = none)
    : key ∉ store.order := by
  intro member
  have held := (coherent.held_iff key).mpr member
  rw [isNew] at held
  cases held

omit [DecidableEq κ] in
/-- The three ways of a filing: under a held key, under a new key while there is room, and
under a new key that costs the oldest one.
-/
theorem Coherent.insert_cases (coherent : Coherent limit store) (positive : 0 < limit)
    (key : κ)
    : (∃ held, store.byKey key = some held)
      ∨ (store.byKey key = none ∧ store.order.length < limit)
      ∨ ∃ oldest rest, store.byKey key = none ∧ store.order = oldest :: rest
        ∧ store.order.length = limit := by
  cases found : store.byKey key with
  | some held => exact .inl ⟨held, rfl⟩
  | none =>
      rcases Nat.lt_or_eq_of_le coherent.bounded with room | full
      · exact .inr (.inl ⟨rfl, room⟩)
      · cases ordered : store.order with
        | nil =>
            rw [ordered] at full
            exact absurd full positive.ne
        | cons oldest rest => exact .inr (.inr ⟨oldest, rest, rfl, rfl, ordered ▸ full⟩)

/-- Filing keeps the order in step with the keys. -/
theorem Coherent.insert (coherent : Coherent limit store) (positive : 0 < limit) (key : κ)
    (value : ν)
    : Coherent limit (store.insert limit key value) := by
  rcases coherent.insert_cases positive key with
    ⟨held, isHeld⟩ | ⟨isNew, room⟩ | ⟨oldest, rest, isNew, ordered, full⟩
  · rw [coherent.insert_held isHeld]
    refine ⟨coherent.nodup, fun other => ?_, coherent.bounded⟩
    have before := coherent.held_iff other
    by_cases same : other = key
    · subst same
      rw [isHeld] at before
      simpa using before
    · simpa [Function.update_of_ne same] using before
  · have outside := coherent.not_mem isNew
    rw [insert_room isNew room]
    refine ⟨List.concat_eq_append ▸ coherent.nodup.concat outside, fun other => ?_, ?_⟩
    · have before := coherent.held_iff other
      by_cases same : other = key
      · simp [same]
      · simpa [Function.update_of_ne same, same] using before
    · simpa using room
  · have outside := coherent.not_mem isNew
    have nodup := coherent.nodup
    rw [ordered] at outside nodup full
    obtain ⟨notOldest, notRest⟩ := not_or.mp (List.mem_cons.not.mp outside)
    rw [insert_full isNew ordered (ordered ▸ full)]
    refine ⟨List.concat_eq_append ▸ nodup.of_cons.concat notRest, fun other => ?_, ?_⟩
    · have before := coherent.held_iff other
      rw [ordered, List.mem_cons] at before
      by_cases dropped : other = oldest
      · subst dropped
        have gone := (List.nodup_cons.mp nodup).1
        simp [gone, Ne.symm notOldest]
      · by_cases same : other = key
        · simp [same, notOldest]
        · simpa [Function.update_of_ne dropped, Function.update_of_ne same, same, dropped]
            using before
    · simpa using full.le

/-- What a filing leaves under each key. -/
theorem Coherent.byKey_insert (coherent : Coherent limit store) (positive : 0 < limit)
    (key other : κ) (value : ν)
    : (Drops limit other store (key, value)
        ∧ (store.insert limit key value).byKey other = none)
      ∨ (¬ Drops limit other store (key, value)
        ∧ (store.insert limit key value).byKey other
          = if other = key then some ((store.byKey key).getD [] ++ [value])
            else store.byKey other) := by
  rcases coherent.insert_cases positive key with
    ⟨held, isHeld⟩ | ⟨isNew, room⟩ | ⟨oldest, rest, isNew, ordered, full⟩
  · refine .inr ⟨fun drops => ?_, ?_⟩
    · rw [drops.1] at isHeld
      cases isHeld
    · rw [coherent.insert_held isHeld, isHeld]
      exact Function.update_apply store.byKey key _ other
  · refine .inr ⟨fun drops => absurd drops.2.1 room.ne, ?_⟩
    rw [insert_room isNew room, isNew]
    exact Function.update_apply store.byKey key _ other
  · rw [insert_full isNew ordered full]
    by_cases dropped : other = oldest
    · refine .inl ⟨⟨isNew, full, ?_⟩, ?_⟩
      · rw [ordered, dropped]
        rfl
      · rw [dropped]
        exact Function.update_self _ _ _
    · refine .inr ⟨fun drops => dropped ?_, ?_⟩
      · have head := drops.2.2
        rw [ordered] at head
        exact (Option.some.inj head).symm
      · rw [isNew]
        show Function.update (Function.update store.byKey key _) oldest none other = _
        rw [Function.update_of_ne dropped, Function.update_apply]
        rfl

/-- Filing appends the key it admits and drops from the front, and only from a full store. -/
theorem Coherent.order_insert (coherent : Coherent limit store) (positive : 0 < limit) (key : κ)
    (value : ν)
    : ∃ lost,
        store.order ++ (if (store.byKey key).isNone then [key] else [])
          = lost ++ (store.insert limit key value).order
        ∧ (lost ≠ [] → (store.insert limit key value).order.length = limit) := by
  rcases coherent.insert_cases positive key with
    ⟨held, isHeld⟩ | ⟨isNew, room⟩ | ⟨oldest, rest, isNew, ordered, full⟩
  · refine ⟨[], ?_, fun some => absurd rfl some⟩
    rw [coherent.insert_held isHeld, isHeld]
    exact List.append_nil _
  · refine ⟨[], ?_, fun some => absurd rfl some⟩
    rw [insert_room isNew room, isNew]
    rfl
  · refine ⟨[oldest], ?_, fun _ => ?_⟩
    · rw [insert_full isNew ordered full, isNew, ordered]
      rfl
    · rw [insert_full isNew ordered full, ← full, ordered]
      simp

end Coherence

-----------------------------------------------------------------------------------------
-- Runs
-----------------------------------------------------------------------------------------

section Runs

variable {κ ν : Type} [DecidableEq κ] {limit : Nat}

omit [DecidableEq κ] in
theorem coherent_empty : Coherent limit (Store.empty : Store κ ν) where
  nodup := List.nodup_nil
  held_iff := fun key => by simp [Store.empty]
  bounded := Nat.zero_le limit

theorem filed_append (key : κ) (front back : List (κ × ν))
    : filed key (front ++ back) = filed key front ++ filed key back := by
  simp [filed]

theorem coherent_gathered (positive : 0 < limit) (filings : List (κ × ν))
    : Coherent limit (gathered limit filings) :=
  run_invariant (Coherent limit)
    (fun _ filing coherent => coherent.insert positive filing.1 filing.2) coherent_empty filings

theorem gathered_append (front back : List (κ × ν))
    : gathered limit (front ++ back) = back.foldl (step limit) (gathered limit front) :=
  List.foldl_append

/-- What is held once more values have been filed. -/
def extend (held : Option (List ν)) (more : List ν) : Option (List ν) :=
  if more = [] then held else some (held.getD [] ++ more)

theorem extend_append (held : Option (List ν)) (first second : List ν)
    : extend held (first ++ second) = extend (extend held first) second := by
  unfold extend
  by_cases noFirst : first = []
  · simp [noFirst]
  · by_cases noSecond : second = []
    · simp [noSecond]
    · simp [noFirst, noSecond]

/-- A run that never drops a key files everything under it. -/
theorem Coherent.byKey_run {store : Store κ ν} (coherent : Coherent limit store)
    (positive : 0 < limit) {key : κ} {filings : List (κ × ν)}
    (kept : Along (step limit) (fun store filing => ¬ Drops limit key store filing) store filings)
    : (filings.foldl (step limit) store).byKey key
      = extend (store.byKey key) (filed key filings) := by
  induction filings generalizing store with
  | nil => rfl
  | cons filing rest ih =>
      have next : Coherent limit (step limit store filing) :=
        coherent.insert positive filing.1 filing.2
      rw [List.foldl_cons, ih next kept.2]
      rcases coherent.byKey_insert positive filing.1 key filing.2 with ⟨drops, _⟩ | ⟨_, now⟩
      · exact absurd drops kept.1
      · rw [show filing :: rest = [filing] ++ rest from rfl, filed_append, extend_append]
        refine congrArg (extend · _) ?_
        show (store.insert limit filing.1 filing.2).byKey key = _
        rw [now]
        by_cases same : key = filing.1
        · simp [filed, extend, same]
        · simp [filed, extend, same, Ne.symm same]

/-- What is held under a key has been filed since the key was last admitted, and nothing has
dropped it since.
-/
theorem exists_admission (positive : 0 < limit) {key : κ} {filings : List (κ × ν)}
    {held : List ν} (isHeld : (gathered limit filings).byKey key = some held)
    : ∃ earlier later, filings = earlier ++ later
      ∧ (gathered limit earlier).byKey key = none
      ∧ Along (step limit) (fun store filing => ¬ Drops limit key store filing)
        (gathered limit earlier) later
      ∧ filed key later = held := by
  induction filings using List.reverseRecOn generalizing held with
  | nil => cases isHeld
  | append_singleton filings filing ih =>
      have coherent := coherent_gathered positive filings
      rw [gathered_append] at isHeld
      rcases coherent.byKey_insert positive filing.1 key filing.2 with ⟨_, gone⟩ | ⟨stays, now⟩
      · exact absurd (gone.symm.trans isHeld) (by simp)
      · cases before : (gathered limit filings).byKey key with
        | none =>
            refine ⟨filings, [filing], rfl, before, ⟨stays, trivial⟩, ?_⟩
            have found := now.symm.trans isHeld
            by_cases same : key = filing.1
            · rw [if_pos same, ← same, before] at found
              simpa [filed, same] using found
            · rw [if_neg same, before] at found
              cases found
        | some old =>
            obtain ⟨earlier, later, rfl, absent, kept, since⟩ := ih before
            rw [gathered_append] at stays
            refine ⟨earlier, later ++ [filing], List.append_assoc earlier later [filing], absent,
              Along.append_iff.mpr ⟨kept, stays, trivial⟩, ?_⟩
            have found := now.symm.trans isHeld
            rw [filed_append, since]
            by_cases same : key = filing.1
            · rw [if_pos same, ← same, before] at found
              simpa [filed, same] using found
            · rw [if_neg same, before] at found
              simpa [filed, Ne.symm same] using found

/-- Over a run the order is what is left of everything admitted after the oldest keys are
gone, and none are gone unless the store is full.
-/
theorem Coherent.order_run {store : Store κ ν} (coherent : Coherent limit store)
    (positive : 0 < limit) (filings : List (κ × ν))
    : ∃ lost,
        store.order ++ admitted limit store filings
          = lost ++ (filings.foldl (step limit) store).order
        ∧ (lost ≠ [] → (filings.foldl (step limit) store).order.length = limit) := by
  induction filings generalizing store with
  | nil => exact ⟨[], List.append_nil _, fun some => absurd rfl some⟩
  | cons filing rest ih =>
      have next : Coherent limit (step limit store filing) :=
        coherent.insert positive filing.1 filing.2
      obtain ⟨first, shifted, firstFull⟩ :=
        coherent.order_insert positive filing.1 filing.2
      obtain ⟨later, rests, laterFull⟩ := ih next
      have bounded :=
        (run_invariant (Coherent limit)
          (fun _ filing coherent => coherent.insert positive filing.1 filing.2) next rest).bounded
      refine ⟨first ++ later, ?_, fun lost => ?_⟩
      · rw [admitted, ← List.append_assoc, shifted, List.append_assoc, List.append_assoc]
        exact congrArg (first ++ ·) rests
      · by_cases noLater : later = []
        · -- the store was full before, and admissions only add to what is left
          have wasFull := firstFull (by simpa [noLater] using lost)
          have longer := congrArg List.length rests
          rw [noLater, List.nil_append, List.length_append] at longer
          have same : (step limit store filing).order.length = limit := wasFull
          exact Nat.le_antisymm bounded (by rw [List.foldl_cons, ← longer, same]; omega)
        · exact laterFull noLater

/-- A held key was admitted by one of the filings, has been held ever since, and holds what
that filing and the later ones put under it.
-/
theorem exists_admitting (positive : 0 < limit) {key : κ} {filings : List (κ × ν)}
    {held : List ν} (isHeld : (gathered limit filings).byKey key = some held)
    : ∃ earlier first later, filings = earlier ++ (key, first) :: later
      ∧ (gathered limit earlier).byKey key = none
      ∧ (∀ front back, later = front ++ back →
        ((gathered limit (earlier ++ (key, first) :: front)).byKey key).isSome)
      ∧ held = first :: filed key later := by
  induction filings using List.reverseRecOn generalizing held with
  | nil => cases isHeld
  | append_singleton filings filing ih =>
      have coherent := coherent_gathered positive filings
      have after := isHeld
      rw [gathered_append] at isHeld
      rcases coherent.byKey_insert positive filing.1 key filing.2 with ⟨_, gone⟩ | ⟨_, now⟩
      · exact absurd (gone.symm.trans isHeld) (by simp)
      · have found := now.symm.trans isHeld
        cases before : (gathered limit filings).byKey key with
        | none =>
            by_cases same : key = filing.1
            · subst same
              rw [if_pos rfl, before] at found
              refine ⟨filings, filing.2, [], rfl, before, fun front back split => ?_, ?_⟩
              · rw [(List.nil_eq_append_iff.mp split).1]
                exact Option.isSome_iff_exists.mpr ⟨held, after⟩
              · exact (Option.some.inj found).symm
            · rw [if_neg same, before] at found
              cases found
        | some old =>
            obtain ⟨earlier, first, later, rfl, absent, kept, since⟩ := ih before
            refine ⟨earlier, first, later ++ [filing],
              List.append_assoc earlier ((key, first) :: later) [filing], absent,
              fun front back split => ?_, ?_⟩
            · rcases List.eq_nil_or_concat back with rfl | ⟨most, last, rfl⟩
              · rw [List.append_nil] at split
                rw [← split]
                exact Option.isSome_iff_exists.mpr ⟨held, by simpa using after⟩
              · rw [List.concat_eq_append, ← List.append_assoc] at split
                exact kept front most (List.append_inj' split rfl).1
            · rw [filed_append]
              by_cases same : key = filing.1
              · rw [if_pos same, ← same, before] at found
                rw [← Option.some.inj found, since]
                simp [filed, same]
              · rw [if_neg same, before] at found
                rw [← Option.some.inj found, since]
                simp [filed, Ne.symm same]

end Runs

end PerpDex.Fifo
