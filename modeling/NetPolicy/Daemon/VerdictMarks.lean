/-
The marks that verdicts give.

A verdict gives a packet the mark of its side, the mark of a policy without rules, the
accepting mark, or none.  The accepting mark, by which the kernel lets the rest of a
connection through without asking again, is only given when the rules in force let the
packet's tuple through or when the packet closes a tracked flow.
-/

import NetPolicy.Daemon.Verdicts

namespace NetPolicy.Daemon

open NetPolicy.Policy NetPolicy.Flow NetPolicy.Http

/-- The rules in force do not deny the tuple. -/
def LetsThrough (env : Environment) (side : Side) (store : MicroSegEngine) (tuple : FiveTuple) :
    Prop :=
  (matchMicroPolicyRule env.order store tuple side.dir).rule ≠ .deny

instance (env : Environment) (side : Side) (store : MicroSegEngine) (tuple : FiveTuple) :
    Decidable (LetsThrough env side store tuple) :=
  inferInstanceAs (Decidable (_ ≠ _))

/-- The packet closes a flow that is tracked. -/
def ClosesTracked (manager : ConnectionManager) (msg : NfqMessage) (now : Nat) : Prop :=
  let received := manager.receive msg.payload true now
  received.2.decision.kind = .closed ∧ received.1.microsegTracked received.2.decision = true

instance (manager : ConnectionManager) (msg : NfqMessage) (now : Nat) :
    Decidable (ClosesTracked manager msg now) :=
  inferInstanceAs (Decidable (_ ∧ _))

/-- One more verdict, whose mark is the accepting one only with a reason. -/
def Marks (side : Side) (reason : Prop) (before after : Handling) : Prop :=
  ∃ call, after.verdicts = before.verdicts ++ [call] ∧
    (call.mark = none ∨ call.mark = some side.pass.value ∨
      call.mark = some NetPolicyRule.default.value ∨
      call.mark = some NetPolicyRule.allow.value ∧ reason)

section Marks

variable {side : Side} {reason : Prop} {before after : Handling}

theorem marks_verdict (handling : Handling) (id : Nat) (verdict : NfqVerdict) :
    Marks side reason handling (handling.verdict id verdict) :=
  ⟨_, rfl, Or.inl rfl⟩

theorem marks_pass (handling : Handling) (id : Nat) (verdict : NfqVerdict)
    (payload : Option (List UInt8)) :
    Marks side reason handling (handling.verdictWithMark id verdict side.pass payload) :=
  ⟨_, rfl, Or.inr (Or.inl rfl)⟩

theorem marks_default (handling : Handling) (id : Nat) (verdict : NfqVerdict)
    (payload : Option (List UInt8)) :
    Marks side reason handling (handling.verdictWithMark id verdict .default payload) :=
  ⟨_, rfl, Or.inr (Or.inr (Or.inl rfl))⟩

theorem marks_allow (given : reason) (handling : Handling) (id : Nat) (verdict : NfqVerdict)
    (payload : Option (List UInt8)) :
    Marks side reason handling (handling.verdictWithMark id verdict .allow payload) :=
  ⟨_, rfl, Or.inr (Or.inr (Or.inr ⟨rfl, given⟩))⟩

theorem Marks.of_same {middle : Handling} (same : middle.verdicts = before.verdicts)
    (marks : Marks side reason middle after) : Marks side reason before after := by
  obtain ⟨call, issued, mark⟩ := marks
  exact ⟨call, by rw [issued, same], mark⟩

theorem Marks.imp {weaker : Prop} (implies : reason → weaker) (marks : Marks side reason before after) :
    Marks side weaker before after := by
  obtain ⟨call, issued, none | pass | default | ⟨allow, given⟩⟩ := marks
  · exact ⟨call, issued, Or.inl none⟩
  · exact ⟨call, issued, Or.inr (Or.inl pass)⟩
  · exact ⟨call, issued, Or.inr (Or.inr (Or.inl default))⟩
  · exact ⟨call, issued, Or.inr (Or.inr (Or.inr ⟨allow, implies given⟩))⟩

end Marks

section Callbacks

variable (env : Environment) (side : Side) (store : MicroSegEngine) (msg : NfqMessage)
  (tuple : FiveTuple) (decision : PacketDecision) (now : Nat) (handling : Handling)

theorem statelessCb_marks :
    Marks side (LetsThrough env side store tuple) handling
      (statelessCb env side store msg tuple handling) := by
  unfold statelessCb LetsThrough
  dsimp only
  split
  · rename_i default
    exact marks_allow (by rw [default]; decide) _ _ _ _
  · split
    · exact .of_same rfl (marks_verdict _ _ _)
    · rename_i notDeny
      exact .of_same rfl (marks_allow notDeny _ _ _ _)

theorem inspectCb_marks (ruleKey : String) :
    Marks side False handling
      (inspectCb env side store msg tuple ruleKey decision now handling) := by
  have dispatched : (handling.dispatch env.libraries decision msg.payload ruleKey now).1.verdicts =
      handling.verdicts := rfl
  unfold inspectCb
  dsimp only
  split
  · exact .of_same dispatched (marks_pass _ _ _ _)
  · split
    · exact .of_same dispatched (marks_default _ _ _ _)
    · split
      · exact .of_same dispatched (marks_pass _ _ _ _)
      · exact .of_same dispatched (.of_same rfl (marks_pass _ _ _ _))

theorem trackedCb_marks (payload : Bool) :
    Marks side (decision.kind = .closed) handling
      (trackedCb env side store msg tuple decision payload now handling) := by
  unfold trackedCb
  split
  · rename_i closed
    exact marks_allow closed _ _ _ _
  · split
    · exact marks_pass _ _ _ _
    · split
      · exact marks_pass _ _ _ _
      · split
        · exact marks_verdict _ _ _
        · exact (inspectCb_marks env side store msg tuple decision now handling _).imp False.elim

theorem untrackedCb_marks (payload : Bool) :
    Marks side (LetsThrough env side store tuple) handling
      (untrackedCb env side store msg tuple decision payload now handling) := by
  unfold untrackedCb LetsThrough
  dsimp only
  split
  · exact marks_pass _ _ _ _
  · split
    · rename_i default
      exact marks_allow (by rw [default]; decide) _ _ _ _
    · split
      · split
        · exact .of_same rfl (marks_verdict _ _ _)
        · rename_i notDeny
          exact .of_same rfl (marks_allow notDeny _ _ _ _)
      · split
        · exact .of_same rfl (marks_pass _ _ _ _)
        · exact (Marks.of_same rfl
            (inspectCb_marks env side store msg _ decision now _ _)).imp False.elim

theorem tcpCb_marks :
    Marks side (LetsThrough env side store tuple ∨
        decision.kind = .closed ∧ handling.manager.microsegTracked decision = true) handling
      (tcpCb env side store msg tuple decision now handling) := by
  by_cases ignored : decision.kind = .ignore
  · rw [tcpCb_ignored env side store msg tuple decision now handling ignored]
    exact marks_pass _ _ _ _
  · have settled := settle_verdicts env msg decision now handling
    cases tracked : handling.manager.microsegTracked decision with
    | true =>
        rw [tcpCb_tracked env side store msg tuple decision now handling ignored tracked]
        exact (Marks.of_same settled (trackedCb_marks env side store msg tuple decision now _ _)).imp
          fun closed => Or.inr ⟨closed, rfl⟩
    | false =>
        rw [tcpCb_untracked env side store msg tuple decision now handling ignored tracked]
        exact (Marks.of_same settled
          (untrackedCb_marks env side store msg tuple decision now _ _)).imp Or.inl

theorem tuple_receive (manager : ConnectionManager) :
    FiveTuple.ofResult (manager.receive msg.payload true now).2.tuple = msg.tuple := by
  unfold ConnectionManager.receive NfqMessage.tuple
  dsimp only
  split <;> rfl

/-- Every callback gives one verdict, and the accepting mark only with a reason. -/
theorem nfqCb_marks (manager : ConnectionManager) :
    Marks side (LetsThrough env side store msg.tuple ∨ ClosesTracked manager msg now)
      (Handling.start manager) (nfqCb env side store msg manager now) := by
  rw [← tuple_receive msg now manager]
  unfold nfqCb
  dsimp only
  split
  · exact marks_verdict _ _ _
  split
  · exact marks_verdict _ _ _
  split
  · exact .of_same rfl (marks_verdict _ _ _)
  split
  · exact (Marks.of_same rfl (statelessCb_marks env side store msg _
      ((Handling.start manager).withManager (manager.receive msg.payload true now).1))).imp Or.inl
  split
  · exact .of_same rfl (marks_verdict _ _ _)
  · exact .of_same rfl (tcpCb_marks env side store msg _ _ now
      ((Handling.start manager).withManager (manager.receive msg.payload true now).1))

end Callbacks

end NetPolicy.Daemon
