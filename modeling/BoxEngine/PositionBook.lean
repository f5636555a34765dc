import BoxEngine.Lib.Keyed
import BoxEngine.Lib.Run
import Mathlib.Data.Finset.Insert
import Mathlib.Data.Finset.Erase

/-!
# The book of open positions

Positions by id and by strike pair, and the strike pairs an entry has reserved.
-/

namespace BoxEngine

structure Booked (π : Type) where
  id : String
  key : String
  position : π
  deriving DecidableEq

structure PositionBook (π : Type) where
  byId : List (Booked π)
  byKey : String → Option String
  reserved : Finset String

namespace PositionBook

variable {π : Type}
variable (book : PositionBook π)
variable (id : String)

def get : Option (Booked π) := book.byId.find? fun pos => pos.id = id

variable (key : String)

/-- An empty id is falsy. -/
def getByKey : Option (Booked π) :=
  ((book.byKey key).filter fun id => id ≠ "").bind book.get

def isTaken : Bool := (book.byKey key).isSome || decide (key ∈ book.reserved)

def reserve : Option (PositionBook π) :=
  if book.isTaken key then none else some { book with reserved := insert key book.reserved }

def release : PositionBook π :=
  { book with reserved := book.reserved.erase key }

def add (pos : Booked π) : PositionBook π where
  byId := Keyed.put Booked.id book.byId pos
  byKey := Function.update book.byKey pos.key (some pos.id)
  reserved := book.reserved.erase pos.key

def remove : PositionBook π :=
  match book.get id with
  | none => book
  | some pos =>
    { byId := book.byId.filter fun other => other.id ≠ id
      byKey := if book.byKey pos.key = some id then Function.update book.byKey pos.key none else book.byKey
      reserved := book.reserved.erase pos.key }

def modify (f : π → π) : PositionBook π :=
  { book with byId := book.byId.map fun pos => if pos.id = id then { pos with position := f pos.position } else pos }

variable (book : PositionBook π)

@[simp] theorem add_byId (pos : Booked π) : (book.add pos).byId = Keyed.put Booked.id book.byId pos := rfl

@[simp] theorem add_byKey (pos : Booked π) :
    (book.add pos).byKey = Function.update book.byKey pos.key (some pos.id) := rfl

theorem modify_ids (id : String) (f : π → π) : (book.modify id f).byId.map Booked.id = book.byId.map Booked.id := by
  simp only [modify, List.map_map]
  refine List.map_congr_left ?_
  intro pos _
  by_cases h : pos.id = id <;> simp [h]

variable {id : String}
variable {pos : Booked π}

theorem mem_remove {book : PositionBook π} (h : pos ∈ (book.remove id).byId) : pos ∈ book.byId := by
  unfold remove at h
  split at h
  · exact h
  · exact List.mem_of_mem_filter h

theorem mem_remove_of_ne {book : PositionBook π} (h : pos ∈ book.byId) (hne : pos.id ≠ id) :
    pos ∈ (book.remove id).byId := by
  unfold remove
  split
  · exact h
  · exact List.mem_filter.mpr ⟨h, decide_eq_true hne⟩

theorem get_eq_none {book : PositionBook π} : book.get id = none ↔ id ∉ book.byId.map Booked.id := by
  simp [get, List.find?_eq_none]

def new : PositionBook π := ⟨[], fun _ => none, ∅⟩

def clear (_ : PositionBook π) : PositionBook π := new

inductive Call (π : Type) where
  | reserve (key : String)
  | release (key : String)
  | add (pos : Booked π)
  | remove (id : String)
  | clear

inductive Answer (π : Type) where
  | done
  | reserved (granted : Bool)
  | removed (pos : Option (Booked π))

def step (book : PositionBook π) (call : Call π) : PositionBook π × Call π × Answer π :=
  match call with
  | .reserve key => ((book.reserve key).getD book, call, .reserved (book.reserve key).isSome)
  | .release key => (book.release key, call, .done)
  | .add pos => (book.add pos, call, .done)
  | .remove id => (book.remove id, call, .removed (book.get id))
  | .clear => (book.clear, call, .done)

variable (key : String)

def Grants : Call π × Answer π → Prop
  | (.reserve key', .reserved true) => key' = key
  | _ => False

/-- The reservation of the key is released by this call, or consumed by it. -/
def Spends : Call π × Answer π → Prop
  | (.release key', _) => key' = key
  | (.add pos, _) => pos.key = key
  | (.remove _, .removed (some pos)) => pos.key = key
  | (.clear, _) => True
  | _ => False

def Outstanding (past : List (Call π × Answer π)) : Prop :=
  ∃ before e after, past = before ++ e :: after ∧ Grants key e ∧ ∀ later ∈ after, ¬Spends key later

theorem outstanding_snoc {key : String} {past : List (Call π × Answer π)} {e : Call π × Answer π} :
    Outstanding key (past ++ [e]) ↔ Grants key e ∨ (Outstanding key past ∧ ¬Spends key e) := by
  constructor
  · rintro ⟨before, e', after, heq, hgrants, hkept⟩
    rcases Run.split_snoc heq with ⟨rfl, rfl, -⟩ | ⟨after', rfl, rfl⟩
    · exact .inl hgrants
    · exact .inr ⟨⟨before, e', after', rfl, hgrants, fun later h => hkept later (List.mem_append_left _ h)⟩,
        hkept e (by simp)⟩
  · rintro (hgrants | ⟨⟨before, e', after, rfl, hgrants, hkept⟩, hspends⟩)
    · exact ⟨past, e, [], rfl, hgrants, by simp⟩
    · exact ⟨before, e', after ++ [e], by simp, hgrants, Run.forall_mem_snoc hkept hspends⟩

/-! ## One box for each key -/

/-- An add has an id and the key of the position it replaces, and what is removed has its key alone. -/
def Regular (book : PositionBook π) : Call π → Prop
  | .add pos => pos.id ≠ "" ∧ ∀ old ∈ book.byId, old.id = pos.id → old.key = pos.key
  | .remove id => ∀ pos ∈ book.byId, pos.id = id → book.byKey pos.key = some id →
    ∀ other ∈ book.byId, other.key = pos.key → other.id = id
  | _ => True

structure OneBoxPerKey (book : PositionBook π) (past : List (Call π × Answer π)) : Prop where
  taken : ∀ key, book.isTaken key = true ↔ (∃ pos ∈ book.byId, pos.key = key) ∨ Outstanding key past
  found : ∀ pos ∈ book.byId, (book.getByKey pos.key).isSome
  refused : ∀ pos ∈ book.byId, book.reserve pos.key = none

structure Indexed (book : PositionBook π) (past : List (Call π × Answer π)) : Prop where
  nodup : (book.byId.map Booked.id).Nodup
  names : ∀ key id, book.byKey key = some id → id ≠ "" ∧ ∃ pos ∈ book.byId, pos.id = id ∧ pos.key = key
  named : ∀ pos ∈ book.byId, ∃ id, book.byKey pos.key = some id
  reserved : ∀ key, key ∈ book.reserved ↔ Outstanding key past

variable {book : PositionBook π} {past : List (Call π × Answer π)}

theorem Indexed.oneBox (h : book.Indexed past) : book.OneBoxPerKey past := by
  have htaken : ∀ key, book.isTaken key = true ↔ (∃ pos ∈ book.byId, pos.key = key) ∨ Outstanding key past := by
    intro key
    rw [isTaken, Bool.or_eq_true, decide_eq_true_eq, h.reserved, Option.isSome_iff_exists]
    refine or_congr_left ⟨?_, ?_⟩
    · rintro ⟨id, hid⟩
      obtain ⟨-, pos, hpos, -, hkey⟩ := h.names key id hid
      exact ⟨pos, hpos, hkey⟩
    · rintro ⟨pos, hpos, rfl⟩
      exact h.named pos hpos
  refine ⟨htaken, fun pos hpos => ?_, fun pos hpos => if_pos ((htaken pos.key).mpr (.inl ⟨pos, hpos, rfl⟩))⟩
  obtain ⟨id, hid⟩ := h.named pos hpos
  obtain ⟨hne, owner, howner, rfl, -⟩ := h.names _ id hid
  simp [getByKey, get, hid, hne, Option.filter, Keyed.find?_of_mem h.nodup howner]

theorem Indexed.add (h : book.Indexed past) (hregular : book.Regular (.add pos)) :
    (book.add pos).Indexed (past ++ [(.add pos, .done)]) where
  nodup := Keyed.nodup_put h.nodup pos
  names := by
    intro key id hid
    by_cases hkey : key = pos.key
    · rw [add_byKey, hkey, Function.update_self] at hid
      obtain rfl := Option.some_inj.mp hid
      exact ⟨hregular.1, pos, Keyed.self_mem_put .., rfl, hkey.symm⟩
    · rw [add_byKey, Function.update_of_ne hkey] at hid
      obtain ⟨hne, owner, howner, rfl, rfl⟩ := h.names key id hid
      have hother : owner.id ≠ pos.id := fun heq => hkey (hregular.2 owner howner heq)
      exact ⟨hne, owner, Keyed.mem_put_of_ne howner hother, rfl, rfl⟩
  named := by
    intro other hother
    by_cases hkey : other.key = pos.key
    · exact ⟨pos.id, by simp [hkey]⟩
    · rcases Keyed.mem_put hother with rfl | hold
      · exact absurd rfl hkey
      · obtain ⟨id, hid⟩ := h.named other hold
        exact ⟨id, by rw [add_byKey, Function.update_of_ne hkey, hid]⟩
  reserved := by
    intro key
    simp only [PositionBook.add, Finset.mem_erase, h.reserved, outstanding_snoc, Grants, Spends, false_or]
    rw [and_comm, ne_comm]

theorem Indexed.remove (h : book.Indexed past) {id : String} (hregular : book.Regular (.remove id)) :
    (book.remove id).Indexed (past ++ [(.remove id, .removed (book.get id))]) := by
  cases hget : book.get id with
  | none =>
    have hsame : book.remove id = book := by simp [PositionBook.remove, hget]
    rw [hsame]
    exact ⟨h.nodup, h.names, h.named, fun key => by simp [h.reserved, outstanding_snoc, Grants, Spends]⟩
  | some pos =>
    have hmem : pos ∈ book.byId := List.mem_of_find?_eq_some hget
    have hid : pos.id = id := by simpa using List.find?_some hget
    have hother : ∀ other ∈ book.byId, other.id = id → other = pos := fun other hother heq =>
      List.inj_on_of_nodup_map h.nodup hother hmem (heq.trans hid.symm)
    -- a key that names another position than the removed one keeps its entry
    have hkept : ∀ key owner, owner ≠ id → book.byKey key = some owner → (book.remove id).byKey key = some owner := by
      intro key owner hne howner
      simp only [PositionBook.remove, hget]
      split
      next hnamed =>
        rw [Function.update_of_ne, howner]
        rintro rfl
        exact hne (Option.some_inj.mp (howner.symm.trans hnamed))
      next => exact howner
    constructor
    case nodup => simpa [PositionBook.remove, hget] using h.nodup.sublist (List.filter_sublist.map _)
    case names =>
      intro key owner howner
      have hbefore : book.byKey key = some owner ∧ owner ≠ id := by
        simp only [PositionBook.remove, hget] at howner
        split at howner
        next hnamed =>
          by_cases hkey : key = pos.key
          · rw [hkey, Function.update_self] at howner
            cases howner
          · rw [Function.update_of_ne hkey] at howner
            refine ⟨howner, ?_⟩
            rintro rfl
            obtain ⟨-, other, hmem', heq, rfl⟩ := h.names key owner howner
            exact hkey (hother other hmem' heq ▸ rfl)
        next hnamed =>
          refine ⟨howner, ?_⟩
          rintro rfl
          obtain ⟨-, other, hmem', heq, rfl⟩ := h.names key owner howner
          exact hnamed (hother other hmem' heq ▸ howner)
      obtain ⟨hne, other, hmem', rfl, hkey⟩ := h.names key owner hbefore.1
      exact ⟨hne, other, mem_remove_of_ne hmem' hbefore.2, rfl, hkey⟩
    case named =>
      intro other hleft
      have hmem' := mem_remove hleft
      obtain ⟨owner, howner⟩ := h.named other hmem'
      refine ⟨owner, hkept _ _ ?_ howner⟩
      rintro rfl
      obtain ⟨-, named, hnamed, heq, hkey⟩ := h.names _ _ howner
      obtain rfl := hother named hnamed heq
      have hgone := hregular named hnamed heq (hkey ▸ howner) other hmem' hkey.symm
      simp [PositionBook.remove, hget, hgone] at hleft
    case reserved =>
      intro key
      simp only [PositionBook.remove, hget, Finset.mem_erase, h.reserved, outstanding_snoc, Grants, Spends, false_or]
      exact ⟨fun ⟨hne, hout⟩ => ⟨hout, Ne.symm hne⟩, fun ⟨hout, hne⟩ => ⟨Ne.symm hne, hout⟩⟩

theorem Indexed.step (h : book.Indexed past) {call : Call π} (hregular : book.Regular call) :
    (book.step call).1.Indexed (past ++ [(book.step call).2]) := by
  cases call with
  | reserve key =>
    cases hreserve : book.reserve key with
    | none =>
      simp only [PositionBook.step, hreserve, Option.getD_none, Option.isSome_none]
      exact ⟨h.nodup, h.names, h.named, fun key => by simp [h.reserved, outstanding_snoc, Grants, Spends]⟩
    | some reserved =>
      have hinsert : reserved = { book with reserved := insert key book.reserved } := by
        unfold PositionBook.reserve at hreserve
        split at hreserve
        · cases hreserve
        · exact (Option.some_inj.mp hreserve).symm
      simp only [PositionBook.step, hreserve, Option.getD_some, Option.isSome_some, hinsert]
      refine ⟨h.nodup, h.names, h.named, fun key' => ?_⟩
      simp [h.reserved, outstanding_snoc, Grants, Spends, eq_comm]
  | release key =>
    refine ⟨h.nodup, h.names, h.named, fun key' => ?_⟩
    simp only [PositionBook.step, PositionBook.release, Finset.mem_erase, h.reserved, outstanding_snoc, Grants, Spends,
      false_or]
    exact ⟨fun ⟨hne, hout⟩ => ⟨hout, Ne.symm hne⟩, fun ⟨hout, hne⟩ => ⟨Ne.symm hne, hout⟩⟩
  | add pos => exact h.add hregular
  | remove id => exact h.remove hregular
  | clear =>
    refine ⟨List.nodup_nil, nofun, nofun, fun key => ?_⟩
    simp [PositionBook.step, PositionBook.clear, new, outstanding_snoc, Grants, Spends]

/-- **One open box for each strike pair**, where an add keeps ids and keys apart and no removal frees another's key.
-/
theorem one_box_per_key (calls : List (Call π)) (h : Run.Guarded step Regular new calls) :
    OneBoxPerKey (Run.finish step new calls) (Run.answers step new calls) := by
  apply Indexed.oneBox
  induction calls using List.reverseRecOn with
  | nil => exact ⟨List.nodup_nil, nofun, nofun, fun key => by simp [new, Outstanding]⟩
  | append_singleton calls call ih =>
    obtain ⟨hbefore, hregular, -⟩ := h.append
    rw [Run.finish_append, Run.answers_snoc]
    exact (ih hbefore).step hregular

def adopted : List (Call Unit) := [.add ⟨"a", "K", ()⟩, .add ⟨"b", "K", ()⟩]

theorem one_box_per_key_adopted :
    OneBoxPerKey (Run.finish step new (adopted ++ [.remove "a"])) (Run.answers step new (adopted ++ [.remove "a"])) :=
  one_box_per_key _ ⟨⟨by decide, by decide⟩, ⟨by decide, by decide⟩, by unfold Regular; decide, trivial⟩

example : ¬∀ calls : List (Call Unit), OneBoxPerKey (Run.finish step new calls) (Run.answers step new calls) := by
  intro h
  have hfound := (h (adopted ++ [.remove "b"])).found ⟨"a", "K", ()⟩ (by decide)
  exact absurd hfound (by decide)

end PositionBook

end BoxEngine
