import Pasarela.Conc.Acts
import Pasarela.Conc.History
import Pasarela.Store.Table

/-!
# Journals

A table of entries, which programs write after what they did. An entry is about things, which a key
names.

* `Journal.Right Tells About l`: what each entry says is so, and no two entries are about the same
  thing. It stays so while what the entries say stays so (`Right.mono`), and when an entry is
  inserted about things of which there is none (`Right.insert`).
* `AskedAt get entryOf s₀ tr t i a l`: at the place `i` the thread `t` asked for the entry `a`, which is
  one of `l`, or got lost: the request left the table `get` as it was.
-/

namespace Store

open Conc (Event Machine replay getElem?_snoc_of_some lt_of_getElem?)

namespace Journal

variable {α κ κ' υ : Type}

/-- The entries are right (module doc). -/
structure Right (Tells : α → Prop) (About : α → κ → Prop) (l : List α) : Prop where
  tells : ∀ a ∈ l, Tells a
  once : ∀ k, ∀ a ∈ l, ∀ a' ∈ l, About a k → About a' k → a = a'

variable {Tells Tells' : α → Prop} {About : α → κ → Prop} {l : List α}

theorem Right.nil : Right Tells About [] :=
  ⟨fun _ h => absurd h List.not_mem_nil, fun _ _ h => absurd h List.not_mem_nil⟩

/-- What the entries say stays so. -/
theorem Right.mono (h : Right Tells About l) (hm : ∀ a, Tells a → Tells' a) :
    Right Tells' About l :=
  ⟨fun a ha => hm a (h.tells a ha), h.once⟩

/-- An entry that says what is so, about things that no entry is about. -/
theorem Right.insert [DecidableEq κ'] [DecidableEq υ] {key : α → κ'} {uniq : α → υ}
    {t t' : Table key uniq} {a : α} (h : Right Tells About t.rows) (hi : t.insert a = .ok t')
    (ha : Tells a) (hnew : ∀ k, About a k → ∀ b ∈ t, ¬ About b k) : Right Tells About t'.rows := by
  refine ⟨fun b hb => ?_, fun k b hb b' hb' hk hk' => ?_⟩
  · rcases (Table.mem_insert hi).mp hb with hb | rfl
    · exact h.tells b hb
    · exact ha
  · rcases (Table.mem_insert hi).mp hb with hb | rfl
    · rcases (Table.mem_insert hi).mp hb' with hb' | rfl
      · exact h.once k b hb b' hb' hk hk'
      · exact absurd hk (hnew k hk' b hb)
    · rcases (Table.mem_insert hi).mp hb' with hb' | rfl
      · exact absurd hk' (hnew k hk b' hb')
      · rfl

end Journal

section Asked

variable {M : Machine} {ι α : Type} {get : M.St → List α} {entryOf : Event M → Option α} {s₀ : M.St}
  {tr : List (ι × Event M)} {t u : ι} {e : Event M} {i : Nat} {a : α} {l l' : List α}

/-- A request for an entry (module doc). -/
structure AskedAt (get : M.St → List α) (entryOf : Event M → Option α) (s₀ : M.St)
    (tr : List (ι × Event M)) (t : ι) (i : Nat) (a : α) (l : List α) : Prop where
  request : ∃ e, tr[i]? = some (t, e) ∧ entryOf e = some a
  outcome : a ∈ l ∨ get (replay s₀ (tr.take (i + 1))) = get (replay s₀ (tr.take i))

theorem AskedAt.snoc (h : AskedAt get entryOf s₀ tr t i a l) (hl : l ⊆ l') :
    AskedAt get entryOf s₀ (tr ++ [(u, e)]) t i a l' := by
  obtain ⟨e', hi, he⟩ := h.request
  have hlt := lt_of_getElem? hi
  refine ⟨⟨e', getElem?_snoc_of_some hi, he⟩, h.outcome.imp (fun ha => hl ha) fun hget => ?_⟩
  rw [List.take_append_of_le_length hlt, List.take_append_of_le_length hlt.le]
  exact hget

/-- The last request of the run. -/
theorem AskedAt.last (he : entryOf e = some a)
    (h : a ∈ l ∨ get (replay s₀ (tr ++ [(t, e)])) = get (replay s₀ tr)) :
    AskedAt get entryOf s₀ (tr ++ [(t, e)]) t tr.length a l := by
  refine ⟨⟨e, List.getElem?_concat_length, he⟩, h.imp_right fun hget => ?_⟩
  rw [List.take_left, List.take_of_length_le (by simp)]
  exact hget

end Asked

end Store
