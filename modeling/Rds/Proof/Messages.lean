import Rds.Proof.Complete

/-!
# When messages arrive as they were written

A side writes messages one after the other. The other side gets them back one per
`sock_recv` exactly if the reads are aligned with them: every message in reads of its own,
all full but the last. After the last message a closed connection ends a frame, too.
-/

namespace Rds

/-- **Successive calls of `sock_recv` return these messages.** -/
def Delivered : Sock → List (List Byte) → Prop
  | _, [] => True
  | s, m :: ms => ∃ b t, sockRecv s = .ok (some b, t) ∧ cstr b = m ∧ Delivered t ms

/-- **The reads are aligned with the messages.** -/
inductive Aligned (closed : Bool) : List ReadRes → List (List Byte) → Prop
  | nil : Aligned closed [] []
  | cons {h rest ms} : IsFrame h → Aligned closed rest ms →
      Aligned closed (h ++ rest) (bytesOf h :: ms)
  | last {h} : closed = true → h ≠ [] → (∀ r ∈ h, ¬ r.Short) → h.length < recvLimit →
      Aligned closed h [bytesOf h]

/-- Aligned messages are delivered. -/
theorem Aligned.delivered {closed : Bool} {reads : List ReadRes} {ms : List (List Byte)}
    (h : Aligned closed reads ms) (h0 : ∀ m ∈ ms, (0 : Byte) ∉ m)
    (hd : ∀ r ∈ reads, r.Delivers) : Delivered ⟨reads, closed⟩ ms := by
  induction h with
  | nil => trivial
  | @cons h rest ms hf _ ih =>
    obtain ⟨hm, h0⟩ := List.forall_mem_cons.1 h0
    obtain ⟨b, hrecv, hcstr⟩ :=
      hf.recv (fun r hr => hd r (List.mem_append_left _ hr)) rest closed
    refine ⟨b, ⟨rest, closed⟩, hrecv, ?_, ih h0 fun r hr => hd r (List.mem_append_right _ hr)⟩
    rw [hcstr, cstr_eq_self hm]
  | @last h hc hne hfull hl =>
    have hm : (0 : Byte) ∉ bytesOf h := h0 _ List.mem_cons_self
    have hsock : SockFrame ⟨h, closed⟩ h .eof ⟨[], closed⟩ := by
      clear hl hm hd h0 hne
      induction h with
      | nil => exact .last (pull_closed rfl hc) (by decide)
      | cons r h ih =>
        exact .more (pull_cons rfl) (hfull r List.mem_cons_self)
          (ih fun b hb => hfull b (List.mem_cons_of_mem _ hb))
    have hb : frameBuf h .eof = some (bytesOf h ++ ReadRes.eof.block) := by
      unfold frameBuf
      split
      · rename_i he; cases he
      · rfl
    refine ⟨_, ⟨[], closed⟩, sockRecv_iff.2 ⟨h, .eof, hsock, hl, hb.symm⟩, ?_, trivial⟩
    rw [cstr_frameBuf hb]
    simpa [ReadRes.eof, ReadRes.bytes] using cstr_eq_self hm

/-- Delivered messages were aligned. -/
theorem Delivered.aligned {ms : List (List Byte)} (hms : ∀ m ∈ ms, m ≠ [] ∧ (0 : Byte) ∉ m) :
    ∀ {s : Sock}, (∀ r ∈ s.reads, r.Delivers) → bytesOf s.reads = ms.flatten →
      Delivered s ms → Aligned s.closed s.reads ms := by
  induction ms with
  | nil =>
    intro s hd hb _
    rw [bytesOf_eq_nil hd hb]
    exact .nil
  | cons m ms ih =>
    rintro s hd hb ⟨b, t, hr, hm, hrest⟩
    obtain ⟨hm0, hms⟩ := List.forall_mem_cons.1 hms
    obtain ⟨g, x, hf, hl, hbuf⟩ := sockRecv_iff.1 hr
    have hcont := hf.content
    -- no byte of the stream is NUL, so the text read is the whole frame
    have hnul : (0 : Byte) ∉ bytesOf g ++ x.bytes := by
      have hall : (0 : Byte) ∉ (m :: ms).flatten := by
        rw [List.mem_flatten]
        rintro ⟨m', hm', h0⟩
        rcases List.mem_cons.1 hm' with rfl | hm'
        · exact hm0.2 h0
        · exact (hms m' hm').2 h0
      rw [← hb, hcont] at hall
      exact fun h => hall (List.mem_append_left _ h)
    rw [cstr_frameBuf hbuf.symm, cstr_eq_self hnul] at hm
    have hbt : bytesOf t.reads = ms.flatten := by
      rw [hcont, hm, List.flatten_cons] at hb
      exact List.append_cancel_left hb
    have hdt : ∀ r ∈ t.reads, r.Delivers := fun r h => hd r (hf.rest.reads.subset h)
    rcases hf.reads_eq with hreads | ⟨hc, hreads, rfl, ht⟩
    · have hal := ih hms hdt hbt hrest
      rw [hf.rest.closed] at hal
      -- the message is the next frame
      have hframe : IsFrame (g ++ [x]) := ⟨g, x, rfl, hf.long, hf.short_last, hl⟩
      have hmsg : m = bytesOf (g ++ [x]) := by rw [bytesOf_concat, ← hm]
      rw [show s.reads = (g ++ [x]) ++ t.reads by rw [hreads]; simp, hmsg]
      exact .cons hframe hal
    -- the end of a closed connection: nothing can follow
    · have hnil : ms = [] := by
        rw [ht] at hbt
        cases ms with
        | nil => rfl
        | cons m' ms =>
          have := (List.flatten_eq_nil_iff.1 hbt.symm) m' List.mem_cons_self
          exact absurd this (hms m' List.mem_cons_self).1
      subst hnil
      have hmg : m = bytesOf g := by rw [← hm]; simp [ReadRes.eof, ReadRes.bytes]
      rw [hreads, hmg]
      refine .last hc ?_ hf.long hl
      rintro rfl
      exact hm0.1 hmg

/-- **When messages are framed.** The bytes of non-empty, NUL-free messages are delivered in
full, in reads of any size. -/
theorem messages_framed_iff {ms : List (List Byte)} (hms : ∀ m ∈ ms, m ≠ [] ∧ (0 : Byte) ∉ m)
    {s : Sock} (hd : ∀ r ∈ s.reads, r.Delivers) (hb : bytesOf s.reads = ms.flatten) :
    Delivered s ms ↔ Aligned s.closed s.reads ms :=
  ⟨Delivered.aligned hms hd hb, fun h => h.delivered (fun m hm => (hms m hm).2) hd⟩

/-- Two messages in reads of their own. -/
theorem messages_framed_iff_two :
    Delivered ⟨[.got [97] (by decide), .got [98] (by decide)], false⟩ [[97], [98]] := by
  refine (@messages_framed_iff [[97], [98]] ?_ _ ?_ rfl).2 ?_
  · simp
  · simp only [List.forall_mem_cons]
    exact ⟨⟨_, _, rfl, by decide⟩, ⟨_, _, rfl, by decide⟩, by simp⟩
  · exact @Aligned.cons _ [_] _ _ ⟨[], _, rfl, by simp, by decide, by decide⟩
      (@Aligned.cons _ [_] [] _ ⟨[], _, rfl, by simp, by decide, by decide⟩ .nil)

/-- **Messages are merged**: two of them in one read come back as one. -/
theorem messages_merged :
    ¬ Delivered ⟨[.got [97, 98] (by decide)], false⟩ [[97], [98]] := by
  rintro ⟨b, t, hr, hb, -⟩
  have hone : sockRecv ⟨[.got [97, 98] (by decide)], false⟩ =
      .ok (some ([97, 98] ++ List.replicate 1998 0), ⟨[], false⟩) := rfl
  rw [hone] at hr
  cases hr
  rw [cstr_append_zeros] at hb
  exact absurd hb (by decide)

end Rds
