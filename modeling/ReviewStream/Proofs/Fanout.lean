import Mathlib.Tactic.Lemma
import ReviewStream.Fanout

/-!
# Rounds of a fan-out

How a round over hooks or listeners goes on, and what it preserves. A hook that breaks off ends the
round over the hooks; however a listener ends its call, the round over the listeners goes on.
-/

namespace ReviewStream.Fanout

variable {Ω ι κ Λ : Type} (F : Fanout Ω ι κ Λ)

lemma tellEach_cons_of_ne_brokeOff (l : Λ) (m : Moment) (e : Event) (h : κ) (hs : List κ) (w : Ω)
    (ho : (F.tell h l m e w).1 ≠ .brokeOff) :
    F.tellEach l m e (h :: hs) w = F.tellEach l m e hs (F.tell h l m e w).2 := by
  rw [tellEach]
  rcases ht : F.tell h l m e w with ⟨o, w'⟩
  rw [ht] at ho
  cases o with
  | returned => rfl
  | refused => rfl
  | brokeOff => exact absurd rfl ho

lemma tellEach_cons_of_brokeOff (l : Λ) (m : Moment) (e : Event) (h : κ) (hs : List κ) (w : Ω)
    (ho : (F.tell h l m e w).1 = .brokeOff) :
    F.tellEach l m e (h :: hs) w = F.tell h l m e w := by
  rw [tellEach]
  rcases ht : F.tell h l m e w with ⟨o, w'⟩
  rw [ht] at ho
  cases ho
  rfl

lemma tellEach_append (l : Λ) (m : Moment) (e : Event) (hs hs' : List κ) (w : Ω) :
    F.tellEach l m e (hs ++ hs') w =
      if (F.tellEach l m e hs w).1 = .brokeOff then F.tellEach l m e hs w
      else F.tellEach l m e hs' (F.tellEach l m e hs w).2 := by
  induction hs generalizing w with
  | nil => simp [tellEach]
  | cons h hs ih =>
    by_cases ho : (F.tell h l m e w).1 = .brokeOff
    · have hstop := fun rest => F.tellEach_cons_of_brokeOff l m e h rest w ho
      rw [List.cons_append, hstop, hstop, if_pos ho]
    · have hgo := fun rest => F.tellEach_cons_of_ne_brokeOff l m e h rest w ho
      rw [List.cons_append, hgo, hgo, ih]

lemma fst_tellEach_ne_brokeOff {l : Λ} {m : Moment} {e : Event} {hs : List κ}
    (hq : ∀ h ∈ hs, ∀ w, (F.tell h l m e w).1 ≠ .brokeOff) (w : Ω) :
    (F.tellEach l m e hs w).1 ≠ .brokeOff := by
  induction hs generalizing w with
  | nil => nofun
  | cons h hs ih =>
    rw [List.forall_mem_cons] at hq
    rw [F.tellEach_cons_of_ne_brokeOff l m e h hs w (hq.1 w)]
    exact ih hq.2 _

lemma notify_of_lifecycle {c : Context Λ} {l : Λ} (hl : c.lifecycle = some l) (w : Ω) :
    F.notify c w =
      let started := F.fire l .scanStarting c.event w
      if started.1 = .brokeOff then started
      else F.fire l .scanDone c.event (F.deliverEach c (F.listeners started.2) started.2) := by
  have hfire : ∀ m w, F.fireIn c m w = F.fire l m c.event w := by
    intro m w
    rw [fireIn, hl]
  simp only [notify, hfire]
  rcases F.fire l .scanStarting c.event w with ⟨o, w'⟩
  cases o <;> rfl

section Preserved

variable {F} {P : Ω → Prop}

lemma tellEach_preserves_of_mem {l : Λ} {m : Moment} {e : Event} {hs : List κ}
    (htell : ∀ h ∈ hs, ∀ w, P w → P (F.tell h l m e w).2) {w : Ω} (hw : P w) :
    P (F.tellEach l m e hs w).2 := by
  induction hs generalizing w with
  | nil => exact hw
  | cons h hs ih =>
    rw [List.forall_mem_cons] at htell
    by_cases ho : (F.tell h l m e w).1 = .brokeOff
    · rw [F.tellEach_cons_of_brokeOff l m e h hs w ho]
      exact htell.1 w hw
    · rw [F.tellEach_cons_of_ne_brokeOff l m e h hs w ho]
      exact ih htell.2 (htell.1 w hw)

lemma tellEach_preserves {l : Λ} {m : Moment} {e : Event}
    (htell : ∀ h w, P w → P (F.tell h l m e w).2) (hs : List κ) {w : Ω} (hw : P w) :
    P (F.tellEach l m e hs w).2 :=
  tellEach_preserves_of_mem (fun h _ => htell h) hw

lemma fireIn_preserves {c : Context Λ} {m : Moment}
    (htell : ∀ h l w, P w → P (F.tell h l m c.event w).2) {w : Ω} (hw : P w) :
    P (F.fireIn c m w).2 := by
  unfold fireIn
  split
  · exact tellEach_preserves (fun h => htell h _) _ hw
  · exact hw

lemma deliverEach_preserves {c : Context Λ} (hdeliver : ∀ i w, P w → P (F.deliver i c w).2)
    (is : List ι) {w : Ω} (hw : P w) : P (F.deliverEach c is w) := by
  induction is generalizing w with
  | nil => exact hw
  | cons i is ih => exact ih (hdeliver i w hw)

lemma notify_preserves {c : Context Λ} (hdeliver : ∀ i w, P w → P (F.deliver i c w).2)
    (htell : ∀ h l m w, P w → P (F.tell h l m c.event w).2) {w : Ω} (hw : P w) :
    P (F.notify c w).2 := by
  have hstarted : P (F.fireIn c .scanStarting w).2 :=
    fireIn_preserves (fun h l => htell h l .scanStarting) hw
  unfold notify
  split
  · rename_i w' heq
    rw [heq] at hstarted
    exact hstarted
  · rename_i o w' _ heq
    rw [heq] at hstarted
    exact fireIn_preserves (fun h l => htell h l .scanDone)
      (deliverEach_preserves hdeliver _ hstarted)

end Preserved

end ReviewStream.Fanout
