import Mathlib.Data.List.Nodup
import Mathlib.Data.List.Perm.Basic
import Mathlib.Tactic.Common
/-!
# Records of what is on its way

A client keeps a record of each operation it submitted, in the order of submission, until a reply settles it.  The
operations themselves are with a server: some are answered, some wait.  Those marked `true` are served in order; the
others are answered at any time.

* `Tracks` — the records agree with the replies, with what is queued in order, and with the others;
* `Tracks.submit`, `done`, `replied`, `settle` — the rules for what client and server do.
-/

namespace NodeSerialport.Lib

variable {ι : Type*} [DecidableEq ι]

/-- **The records agree with what is on its way.** -/
structure Tracks (records : List (ι × Bool)) (replies queued others : List ι) : Prop where
  perm : (replies ++ queued ++ others).Perm (records.map Prod.fst)
  order : replies.filter (fun i => (i, true) ∈ records) ++ queued = (records.filter Prod.snd).map Prod.fst

namespace Tracks

variable {records : List (ι × Bool)} {replies queued others : List ι} {i : ι}

theorem nil : Tracks ([] : List (ι × Bool)) [] [] [] := ⟨.refl _, rfl⟩

theorem mem_records (h : Tracks records replies queued others) {j : ι} (hj : j ∈ replies ++ queued ++ others) :
    j ∈ records.map Prod.fst := h.perm.mem_iff.1 hj

theorem length_eq (h : Tracks records replies queued others) :
    replies.length + queued.length + others.length = records.length := by
  have hlen := h.perm.length_eq
  rw [List.length_append, List.length_append, List.length_map] at hlen
  exact hlen

theorem queued_mem (h : Tracks records replies queued others) {j : ι} (hj : j ∈ queued) : (j, true) ∈ records := by
  have hmem : j ∈ (records.filter Prod.snd).map Prod.fst := by
    rw [← h.order]
    exact List.mem_append_right _ hj
  obtain ⟨⟨k, o⟩, hk, rfl⟩ := List.mem_map.1 hmem
  obtain ⟨hrecord, ho⟩ := List.mem_filter.1 hk
  obtain rfl : o = true := ho
  exact hrecord

/-- An ordered operation is done. -/
theorem done (h : Tracks records replies (i :: queued) others) : Tracks records (replies ++ [i]) queued others := by
  have hi : (i, true) ∈ records := h.queued_mem List.mem_cons_self
  have happend : replies ++ [i] ++ queued = replies ++ i :: queued := by simp
  have hone : [i].filter (fun j => (j, true) ∈ records) = [i] := by simp [hi]
  refine ⟨by rw [happend]; exact h.perm, ?_⟩
  rw [← h.order, List.filter_append, hone, List.append_assoc]
  rfl

/-- Another operation is answered. -/
theorem replied (h : Tracks records replies queued others) (hnodup : (records.map Prod.fst).Nodup) {others' : List ι}
    (hothers : others.Perm (i :: others')) : Tracks records (replies ++ [i]) queued others' := by
  have hall := h.perm.nodup_iff.2 hnodup
  have hi : (i, true) ∉ records := by
    intro hi
    have hmem : i ∈ replies.filter (fun i => (i, true) ∈ records) ++ queued := by
      rw [h.order]
      exact List.mem_map.2 ⟨(i, true), List.mem_filter.2 ⟨hi, rfl⟩, rfl⟩
    have hmem' : i ∈ replies ++ queued := by
      rcases List.mem_append.1 hmem with hm | hm
      · exact List.mem_append_left _ (List.mem_of_mem_filter hm)
      · exact List.mem_append_right _ hm
    exact (List.nodup_append.1 hall).2.2 i hmem' i (hothers.mem_iff.2 List.mem_cons_self) rfl
  refine ⟨?_, ?_⟩
  · have hsplit : replies ++ [i] ++ queued ++ others' = replies ++ i :: (queued ++ others') := by simp
    have hmiddle : (i :: (queued ++ others')).Perm (queued ++ others) :=
      List.perm_middle.symm.trans (hothers.symm.append_left queued)
    rw [hsplit]
    refine List.Perm.trans (hmiddle.append_left replies) ?_
    rw [← List.append_assoc]
    exact h.perm
  · have hone : [i].filter (fun j => (j, true) ∈ records) = [] := by simp [hi]
    rw [← h.order, List.filter_append, hone, List.append_nil]

/-- An ordered operation is submitted. -/
theorem submit (h : Tracks records replies queued others) (hi : i ∉ records.map Prod.fst) :
    Tracks (records ++ [(i, true)]) replies (queued ++ [i]) others := by
  refine ⟨?_, ?_⟩
  · have hsplit : replies ++ (queued ++ [i]) ++ others = replies ++ queued ++ ([i] ++ others) := by simp
    rw [List.map_append, hsplit]
    refine List.Perm.trans (List.perm_append_comm.append_left _) ?_
    rw [← List.append_assoc]
    exact h.perm.append_right [i]
  · have hsame : replies.filter (fun j => (j, true) ∈ records ++ [(i, true)]) =
        replies.filter (fun j => (j, true) ∈ records) := by
      refine List.filter_congr fun j hj => ?_
      have hne : j ≠ i := by
        rintro rfl
        exact hi (h.mem_records (List.mem_append_left _ (List.mem_append_left _ hj)))
      simp [hne]
    rw [hsame, ← List.append_assoc, h.order, List.filter_append, List.map_append]
    rfl

theorem submit_other (h : Tracks records replies queued others) :
    Tracks (records ++ [(i, false)]) replies queued (others ++ [i]) := by
  refine ⟨?_, ?_⟩
  · rw [List.map_append, ← List.append_assoc]
    exact h.perm.append_right [i]
  · have hsame : replies.filter (fun j => (j, true) ∈ records ++ [(i, false)]) =
        replies.filter (fun j => (j, true) ∈ records) := List.filter_congr fun j _ => by simp
    rw [hsame, h.order, List.filter_append, List.map_append]
    exact (List.append_nil _).symm

/-- **A reply settles its record**, and one that is served in order settles the first of these. -/
theorem settle {o : Bool} {before after : List (ι × Bool)}
    (h : Tracks (before ++ (i, o) :: after) (i :: replies) queued others)
    (hnodup : ((before ++ (i, o) :: after).map Prod.fst).Nodup) :
    Tracks (before ++ after) replies queued others ∧ (o = true → before.filter Prod.snd = []) := by
  have hperm : (i :: (replies ++ queued ++ others)).Perm (i :: (before ++ after).map Prod.fst) := by
    refine h.perm.trans ?_
    rw [List.map_append, List.map_append]
    exact List.perm_middle
  have hnodup' : (i :: (before ++ after).map Prod.fst).Nodup := by
    refine (List.Perm.nodup_iff ?_).1 hnodup
    rw [List.map_append, List.map_append]
    exact List.perm_middle
  have hi : i ∉ (before ++ after).map Prod.fst := (List.nodup_cons.1 hnodup').1
  have hsame : replies.filter (fun j => (j, true) ∈ before ++ (i, o) :: after) =
      replies.filter (fun j => (j, true) ∈ before ++ after) := by
    refine List.filter_congr fun j hj => ?_
    have hne : j ≠ i := by
      rintro rfl
      refine hi (hperm.cons_inv.mem_iff.1 ?_)
      exact List.mem_append_left _ (List.mem_append_left _ hj)
    simp [hne]
  have horder := h.order
  rw [List.filter_append, List.map_append] at horder
  cases o with
  | true =>
    rw [List.filter_cons_of_pos (by simp), List.filter_cons_of_pos rfl, hsame] at horder
    have hbefore : before.filter Prod.snd = [] := by
      cases hb : before.filter Prod.snd with
      | nil => rfl
      | cons record rest =>
        exfalso
        rw [hb, List.map_cons, List.cons_append, List.cons_append, List.cons.injEq] at horder
        have hmem : record ∈ before := List.mem_of_mem_filter (p := Prod.snd) (by rw [hb]; exact List.mem_cons_self)
        exact hi (List.mem_map.2 ⟨record, List.mem_append_left _ hmem, horder.1.symm⟩)
    rw [hbefore, List.map_nil, List.nil_append, List.map_cons, List.cons_append, List.cons.injEq] at horder
    refine ⟨⟨hperm.cons_inv, ?_⟩, fun _ => hbefore⟩
    rw [List.filter_append, hbefore, List.nil_append]
    exact horder.2
  | false =>
    have hno : (i, true) ∉ before ++ (i, false) :: after := by
      intro hmem
      refine hi (List.mem_map.2 ⟨(i, true), ?_, rfl⟩)
      rw [List.mem_append, List.mem_cons] at hmem
      rw [List.mem_append]
      rcases hmem with hm | hm | hm
      · exact .inl hm
      · cases hm
      · exact .inr hm
    rw [List.filter_cons_of_neg (by simpa using hno), List.filter_cons_of_neg (by simp), hsame] at horder
    refine ⟨⟨hperm.cons_inv, ?_⟩, nofun⟩
    rw [List.filter_append, List.map_append]
    exact horder

end Tracks

end NodeSerialport.Lib
