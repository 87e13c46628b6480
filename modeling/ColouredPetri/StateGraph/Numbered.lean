import ColouredPetri.Text.Quoted

namespace ColouredPetri

structure Numbered (α : Type) where
  items : List α
  deriving DecidableEq

namespace Numbered

variable {α β : Type}

def empty : Numbered α := ⟨[]⟩

instance : Inhabited (Numbered α) := ⟨empty⟩

def size (s : Numbered α) : Nat := s.items.length

def isEmpty (s : Numbered α) : Bool := s.items.isEmpty

def next (s : Numbered α) : Nat := s.items.length

def push (s : Numbered α) (a : α) : Numbered α := ⟨s.items ++ [a]⟩

def get? (s : Numbered α) (n : Nat) : Option α := s.items[n]?

def set (s : Numbered α) (n : Nat) (a : α) : Numbered α := ⟨s.items.set n a⟩

def modify (s : Numbered α) (n : Nat) (f : α → α) : Numbered α := ⟨s.items.modify n f⟩

def entries (s : Numbered α) : List (Nat × α) := s.items.mapIdx fun n a => (n, a)

theorem get?_push_next (s : Numbered α) (a : α) : (s.push a).get? s.next = some a := by
  simp [push, get?, next]

theorem get?_push_of_lt {s : Numbered α} {n : Nat} (h : n < s.next) (a : α) :
    (s.push a).get? n = s.get? n := by
  simp only [push, get?, next] at *
  rw [List.getElem?_append_left h]

theorem get?_push (s : Numbered α) (a : α) (n : Nat) :
    (s.push a).get? n = if n = s.next then some a else s.get? n := by
  split
  · next h => rw [h, get?_push_next]
  · next h =>
    simp only [push, get?, next] at *
    rw [List.getElem?_append]
    split
    · rfl
    · rw [List.getElem?_eq_none (by simp; omega), List.getElem?_eq_none (by omega)]

theorem get?_set (s : Numbered α) (n k : Nat) (a : α) :
    (s.set n a).get? k = if k = n then (s.get? n).map fun _ => a else s.get? k := by
  simp only [set, get?, List.getElem?_set]
  by_cases hk : k = n
  · subst hk
    by_cases hlt : k < s.items.length <;> simp [hlt]
  · rw [if_neg (Ne.symm hk), if_neg hk]

theorem get?_modify (s : Numbered α) (n k : Nat) (f : α → α) :
    (s.modify n f).get? k = if k = n then (s.get? n).map f else s.get? k := by
  simp only [modify, get?, List.getElem?_modify]
  by_cases hk : k = n
  · subst hk
    rw [if_pos rfl]
    cases s.items[k]? <;> simp
  · simp [Ne.symm hk, hk]

@[simp] theorem next_push (s : Numbered α) (a : α) : (s.push a).next = s.next + 1 := by
  simp [push, next]

@[simp] theorem next_set (s : Numbered α) (n : Nat) (a : α) : (s.set n a).next = s.next := by
  simp [set, next]

@[simp] theorem next_modify (s : Numbered α) (n : Nat) (f : α → α) :
    (s.modify n f).next = s.next := by
  simp [modify, next]

def debugText (s : Numbered String) : String :=
  "\x7b" ++ ", ".intercalate
    (s.entries.map fun e => "s" ++ toString e.1 ++ ": " ++ Text.quoted e.2) ++ "\x7d"

end Numbered

end ColouredPetri
