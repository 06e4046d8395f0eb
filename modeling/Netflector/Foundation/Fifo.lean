import Mathlib.Data.List.Basic
import Mathlib.Tactic.Common

/-!
# Queues

A queue is everything ever put in and how much of it is gone; what is live is
the rest, in order.
-/

namespace Netflector.Foundation

universe u

structure Fifo (Item : Type u) where
  put : List Item
  gone : Nat
  gone_le : gone ≤ put.length

namespace Fifo

variable {Item : Type u}

def empty : Fifo Item := ⟨[], 0, Nat.zero_le _⟩

def live (fifo : Fifo Item) : List Item := fifo.put.drop fifo.gone

theorem push_le (fifo : Fifo Item) (items : List Item) :
    fifo.gone ≤ (fifo.put ++ items).length := by
  have hle := fifo.gone_le
  rw [List.length_append]
  omega

def push (fifo : Fifo Item) (items : List Item) : Fifo Item :=
  ⟨fifo.put ++ items, fifo.gone, fifo.push_le items⟩

theorem pull_le (fifo : Fifo Item) (count : Nat) :
    min (fifo.gone + count) fifo.put.length ≤ fifo.put.length :=
  Nat.min_le_right _ _

def pull (fifo : Fifo Item) (count : Nat) : Fifo Item :=
  ⟨fifo.put, min (fifo.gone + count) fifo.put.length, fifo.pull_le count⟩

theorem clear_le (fifo : Fifo Item) : fifo.put.length ≤ fifo.put.length :=
  Nat.le_refl _

def clear (fifo : Fifo Item) : Fifo Item :=
  ⟨fifo.put, fifo.put.length, fifo.clear_le⟩

@[simp] theorem live_empty : (empty : Fifo Item).live = [] := rfl

@[simp] theorem live_push (fifo : Fifo Item) (items : List Item) :
    (fifo.push items).live = fifo.live ++ items :=
  List.drop_append_of_le_length fifo.gone_le

@[simp] theorem live_pull (fifo : Fifo Item) (count : Nat) :
    (fifo.pull count).live = fifo.live.drop count := by
  simp only [live, pull, List.drop_drop]
  rcases Nat.le_total (fifo.gone + count) fifo.put.length with hle | hge
  · rw [Nat.min_eq_left hle]
  · rw [Nat.min_eq_right hge, List.drop_length, List.drop_of_length_le hge]

@[simp] theorem live_clear (fifo : Fifo Item) : fifo.clear.live = [] :=
  List.drop_length

end Fifo

end Netflector.Foundation
