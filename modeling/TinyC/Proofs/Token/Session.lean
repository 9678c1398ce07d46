import Mathlib.Data.List.Induction
import Mathlib.Tactic.Common
import TinyC.Proofs.Token.Span
import TinyC.Token.Session

namespace TinyC

namespace ScanReply

def returned : ScanReply → List Token
  | token t => [t]
  | tokens ts => ts
  | _ => []

def endsStream : ScanReply → Bool
  | token t => t.kind = .eof
  | fault _ => true
  | _ => false

end ScanReply

namespace ScanSession

def run (s : ScanSession) (qs : List ScanRequest) : List (ScanRequest × ScanReply) × ScanSession :=
  qs.foldl (fun p q => (p.1 ++ [(q, (p.2.perform q).1)], (p.2.perform q).2)) ([], s)

lemma run_append_singleton (s : ScanSession) (qs : List ScanRequest) (q : ScanRequest) :
    s.run (qs ++ [q]) =
      ((s.run qs).1 ++ [(q, ((s.run qs).2.perform q).1)], ((s.run qs).2.perform q).2) := by
  rw [run, List.foldl_append]
  rfl

lemma pull_of_live {s : ScanSession} {n : Nat} (h : s.live[n]? = some true) :
    (s.pull n).1 = (s.perform .next).1 ∧ (s.pull n).2.cursor = (s.perform .next).2.cursor := by
  rw [pull, if_pos h, perform]
  cases s.cursor.next with
  | ok t d => exact ⟨rfl, rfl⟩
  | error f d => exact ⟨rfl, rfl⟩

lemma pull_of_not_live {s : ScanSession} {n : Nat} (h : s.live[n]? ≠ some true) :
    s.pull n = (.exhausted, s) := by
  rw [pull, if_neg h]

structure Advances (s : ScanSession) (reply : ScanReply) (t : ScanSession) : Prop where
  reaches : s.cursor.Reaches t.cursor
  spans : Spans s.cursor.file s.cursor.source s.cursor.position reply.returned t.cursor.position
  last : ∀ u ∈ reply.returned.getLast?, ∃ a, s.cursor.position ≤ a ∧
    u.Covers s.cursor.file s.cursor.source a t.cursor.position
  fault : ∀ f, reply = .fault f → f.location = t.cursor.location

lemma Advances.of_reaches {s t : ScanSession} {reply : ScanReply}
    (h : s.cursor.Reaches t.cursor) (hr : reply.returned = []) (hf : ∀ f, reply ≠ .fault f) :
    s.Advances reply t := by
  refine ⟨h, ?_, ?_, fun f hf' => absurd hf' (hf f)⟩
  · rw [hr]
    exact .nil h.position_le
  · simp [hr]

lemma next_advances {s : ScanSession} (hs : s.cursor.Placed) :
    s.Advances (s.perform .next).1 (s.perform .next).2 := by
  rw [perform]
  cases h : s.cursor.next with
  | error f d =>
    obtain ⟨hd, hl, -⟩ := Cursor.next_fault_location h
    refine ⟨hd, .nil hd.position_le, by simp [ScanReply.returned], fun g hg => ?_⟩
    cases hg
    exact hl
  | ok t d =>
    obtain ⟨hd, a, ha, hcov⟩ := Cursor.next_covers hs h
    refine ⟨hd, .cons ha hcov (.nil (Nat.le_refl _)), fun u hu => ?_, fun f hf => ?_⟩
    · cases hu
      exact ⟨a, ha, hcov⟩
    · cases hf

lemma drain_advances {s : ScanSession} (hs : s.cursor.Placed) :
    s.Advances (s.perform .drain).1 (s.perform .drain).2 := by
  have hd := s.cursor.scan_reaches
  rw [perform]
  cases h : s.cursor.scan.fault with
  | some f =>
    refine ⟨hd, .nil hd.position_le, by simp [ScanReply.returned], fun g hg => ?_⟩
    cases hg
    exact (s.cursor.scan_fault_location h).1
  | none =>
    refine ⟨hd, s.cursor.scan_spans hs, fun u hu => ?_, fun f hf => ?_⟩
    · obtain ⟨t, ht, -, hcov⟩ := s.cursor.scan_last hs h
      cases ht.symm.trans hu
      exact hcov
    · cases hf

lemma perform_advances {s : ScanSession} (hs : s.cursor.Placed) (q : ScanRequest) :
    s.Advances (s.perform q).1 (s.perform q).2 := by
  cases q with
  | next => exact next_advances hs
  | character => exact .of_reaches s.cursor.reaches_step rfl (by simp [perform])
  | stream => exact .of_reaches (.refl s.cursor) rfl (by simp [perform])
  | pull n =>
    rw [perform]
    by_cases h : s.live[n]? = some true
    · obtain ⟨hreply, hcursor⟩ := pull_of_live h
      obtain ⟨hreaches, hspans, hlast, hfault⟩ := next_advances hs
      rw [← hcursor] at hreaches hspans hlast hfault
      rw [hreply]
      exact ⟨hreaches, hspans, hlast, hfault⟩
    · rw [pull_of_not_live h]
      exact .of_reaches (.refl s.cursor) rfl (by simp)
  | drain => exact drain_advances hs

lemma live_next (s : ScanSession) : (s.perform .next).2.live = s.live := by
  rw [perform]
  cases s.cursor.next with
  | ok t d => rfl
  | error f d => rfl

lemma live_pull (s : ScanSession) (n : Nat) :
    (s.pull n).2.live = if (s.pull n).1.endsStream then s.live.set n false else s.live := by
  rw [pull]
  split
  · cases s.cursor.next with
    | ok t d =>
      by_cases ht : t.kind = .eof
      · simp [ht, ScanReply.endsStream]
      · simp [ht, ScanReply.endsStream]
    | error f d => rfl
  · rfl

structure Tells (log : List (ScanRequest × ScanReply)) (live : List Bool) : Prop where
  opened : live.length = (log.map Prod.fst).count .stream
  ended : ∀ n, live[n]? = some false ↔ ∃ a, (.pull n, a) ∈ log ∧ a.endsStream = true

lemma Tells.frame {log : List (ScanRequest × ScanReply)} {live : List Bool} {q : ScanRequest}
    {a : ScanReply} (h : Tells log live) (hq : q ≠ .stream)
    (ha : ∀ n, q = .pull n → a.endsStream = false) : Tells (log ++ [(q, a)]) live where
  opened := by simp [h.opened, hq]
  ended n := by
    rw [h.ended n]
    constructor
    · rintro ⟨b, hb, he⟩
      exact ⟨b, List.mem_append_left _ hb, he⟩
    · rintro ⟨b, hb, he⟩
      rcases List.mem_append.mp hb with hb | hb
      · exact ⟨b, hb, he⟩
      · obtain ⟨rfl, rfl⟩ := Prod.mk.inj (List.mem_singleton.mp hb)
        cases (ha n rfl).symm.trans he

lemma Tells.stream {log : List (ScanRequest × ScanReply)} {live : List Bool} (h : Tells log live)
    (a : ScanReply) : Tells (log ++ [(.stream, a)]) (live ++ [true]) where
  opened := by simp [h.opened]
  ended n := by
    have hlive : (live ++ [true])[n]? = some false ↔ live[n]? = some false := by
      rw [List.getElem?_append]
      split
      · rfl
      · rename_i hn
        rw [List.getElem?_eq_none (Nat.le_of_not_lt hn)]
        simp [List.getElem?_singleton]
    simp [hlive, h.ended n]

lemma Tells.pull {log : List (ScanRequest × ScanReply)} {live : List Bool} {n : Nat} {a : ScanReply}
    (h : Tells log live) (hn : n < live.length) (ha : a.endsStream = true) :
    Tells (log ++ [(.pull n, a)]) (live.set n false) where
  opened := by simp [h.opened]
  ended m := by
    rw [List.getElem?_set]
    by_cases hm : n = m
    · subst hm
      simp only [if_true, hn, true_iff]
      exact ⟨a, by simp, ha⟩
    · rw [if_neg hm, h.ended m]
      simp [Ne.symm hm]

lemma Tells.live_iff {log : List (ScanRequest × ScanReply)} {live : List Bool} (h : Tells log live)
    (n : Nat) : live[n]? = some true ↔ n < (log.map Prod.fst).count .stream ∧
      ∀ a, (.pull n, a) ∈ log → a.endsStream = false := by
  have hended := h.ended n
  rw [← h.opened]
  constructor
  · intro hn
    refine ⟨(List.getElem?_eq_some_iff.mp hn).1, fun a ha => ?_⟩
    by_contra he
    cases hn.symm.trans (hended.mpr ⟨a, ha, by simpa using he⟩)
  · rintro ⟨hlt, hall⟩
    rw [List.getElem?_eq_getElem hlt] at hended ⊢
    cases hb : live[n] with
    | true => rfl
    | false =>
      rw [hb] at hended
      obtain ⟨a, ha, he⟩ := hended.mp rfl
      cases (hall a ha).symm.trans he

lemma perform_tells {log : List (ScanRequest × ScanReply)} {s : ScanSession}
    (h : Tells log s.live) (q : ScanRequest) :
    Tells (log ++ [(q, (s.perform q).1)]) (s.perform q).2.live := by
  cases q with
  | next =>
    rw [live_next]
    exact h.frame (by simp) (by simp)
  | character => exact h.frame (by simp) (by simp)
  | stream => exact h.stream _
  | pull n =>
    rw [perform, live_pull]
    by_cases ha : (s.pull n).1.endsStream = true
    · have hn : s.live[n]? = some true := by
        by_contra hn
        rw [pull_of_not_live hn] at ha
        cases ha
      rw [if_pos ha]
      exact h.pull (List.getElem?_eq_some_iff.mp hn).1 ha
    · rw [if_neg ha]
      exact h.frame (by simp) fun _ _ => by simpa using ha
  | drain => exact h.frame (by simp) (by simp)

structure Invariant (file source : String) (log : List (ScanRequest × ScanReply))
    (s : ScanSession) : Prop where
  reaches : (Cursor.start file source).Reaches s.cursor
  spans : Spans file source.toList 0 (log.flatMap fun e => e.2.returned) s.cursor.position
  tells : Tells log s.live

namespace Invariant

variable {file source : String} {log : List (ScanRequest × ScanReply)} {s : ScanSession}

lemma placed (h : Invariant file source log s) : s.cursor.Placed :=
  h.reaches.placed (Cursor.start_placed file source)

lemma file_eq (h : Invariant file source log s) : s.cursor.file = file :=
  h.reaches.file_eq

lemma source_eq (h : Invariant file source log s) : s.cursor.source = source.toList :=
  h.reaches.source_eq

lemma perform (h : Invariant file source log s) (q : ScanRequest) :
    Invariant file source (log ++ [(q, (s.perform q).1)]) (s.perform q).2 := by
  obtain ⟨hreaches, hspans, -, -⟩ := perform_advances h.placed q
  rw [h.file_eq, h.source_eq] at hspans
  refine ⟨h.reaches.trans hreaches, ?_, perform_tells h.tells q⟩
  rw [List.flatMap_append, List.flatMap_singleton]
  exact h.spans.append hspans

end Invariant

lemma start_invariant (file source : String) : Invariant file source [] (start file source) :=
  ⟨.refl _, .nil (Nat.le_refl _), rfl, by simp [start]⟩

lemma run_invariant (file source : String) (qs : List ScanRequest) :
    Invariant file source ((start file source).run qs).1 ((start file source).run qs).2 := by
  induction qs using List.reverseRecOn with
  | nil => exact start_invariant file source
  | append_singleton qs q ih =>
    rw [run_append_singleton]
    exact ih.perform q

lemma requests_run (s : ScanSession) (qs : List ScanRequest) : (s.run qs).1.map Prod.fst = qs := by
  induction qs using List.reverseRecOn with
  | nil => rfl
  | append_singleton qs q ih => rw [run_append_singleton, List.map_append, ih]; rfl

/-- After any requests the cursor stands in its text at the place of its position, and all tokens
returned so far cover stretches of the text in order. A stream is live if it was opened and has
given neither the end of input nor a fault. Every further request moves the cursor forward only; the
tokens it returns stand behind where it was and end where it is, and a fault has its place. A live
stream gives what the cursor itself gives, another one nothing. -/
theorem run_session (file source : String) (qs : List ScanRequest) :
    let log := ((start file source).run qs).1
    let s := ((start file source).run qs).2
    let text := source.toList
    (s.cursor.source = text ∧ s.cursor.position ≤ text.length ∧
        s.cursor.location = Location.behind file (text.take s.cursor.position)) ∧
      Spans file text 0 (log.flatMap fun e => e.2.returned) s.cursor.position ∧
      (∀ n, s.live[n]? = some true ↔
        n < qs.count .stream ∧ ∀ a, (.pull n, a) ∈ log → a.endsStream = false) ∧
      (∀ q,
        let r := s.perform q
        s.cursor.position ≤ r.2.cursor.position ∧
          Spans file text s.cursor.position r.1.returned r.2.cursor.position ∧
          (∀ t ∈ r.1.returned.getLast?,
            ∃ a, s.cursor.position ≤ a ∧ t.Covers file text a r.2.cursor.position) ∧
          ∀ f, r.1 = .fault f → f.location = r.2.cursor.location) ∧
      ∀ n, if s.live[n]? = some true then
          (s.perform (.pull n)).1 = (s.perform .next).1 ∧
            (s.perform (.pull n)).2.cursor = (s.perform .next).2.cursor
        else s.perform (.pull n) = (.exhausted, s) := by
  intro log s text
  have hinv : Invariant file source log s := run_invariant file source qs
  refine ⟨⟨hinv.source_eq, ?_, ?_⟩, hinv.spans, fun n => ?_, fun q => ?_, fun n => ?_⟩
  · have hle := s.cursor.position_le_length
    rwa [hinv.source_eq] at hle
  · rw [hinv.placed.location_eq, hinv.file_eq, hinv.source_eq]
  · have hlive := hinv.tells.live_iff n
    rwa [requests_run] at hlive
  · obtain ⟨hreaches, hspans, hlast, hfault⟩ := perform_advances hinv.placed q
    rw [hinv.file_eq, hinv.source_eq] at hspans hlast
    exact ⟨hreaches.position_le, hspans, hlast, hfault⟩
  · split
    · rename_i hn
      exact pull_of_live hn
    · rename_i hn
      exact pull_of_not_live hn

end ScanSession

end TinyC
