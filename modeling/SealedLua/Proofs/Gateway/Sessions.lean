import SealedLua.Proofs.Gateway.Records

/-!
# The life of a session

A session lives from the call that opens it to the call that closes it.  The
history of a run says which numbers were given out and taken back; `Follows`
says that the table of sessions and its counter agree with the history, and one
lemma says that every call keeps this, however many there are.

The counter is a 32-bit word.  The first 2³² sessions have different numbers;
after that a new session gets the number of an old one, whether or not that one
still lives.
-/

namespace SealedLua

open Program (ComesTo comesTo_pure comesTo_bind)

namespace Exchange

def opens? : Exchange → Option UInt32
  | ⟨_, .opened (.ok id)⟩ => some id
  | _ => none

def closes? : Exchange → Option UInt32
  | ⟨.closeSession id, .closed (.ok ())⟩ => some id
  | _ => none

def numbers (history : List Exchange) : List UInt32 := history.filterMap opens?

/-- A session was opened under a number, and none of that number was closed since. -/
def IsLive (history : List Exchange) (id : UInt32) : Prop :=
  ∃ earlier opening since, history = earlier ++ opening :: since ∧ opening.opens? = some id ∧
    ∀ e ∈ since, e.closes? ≠ some id

variable {history : List Exchange} {e : Exchange} {id : UInt32}

theorem not_isLive_nil (id : UInt32) : ¬IsLive [] id := by
  rintro ⟨earlier, opening, since, h, -⟩
  simp at h

theorem isLive_concat : IsLive (history ++ [e]) id ↔ e.opens? = some id ∨ IsLive history id ∧
    e.closes? ≠ some id := by
  constructor
  · rintro ⟨earlier, opening, since, h, hopens, hcloses⟩
    rcases List.eq_nil_or_concat since with rfl | ⟨before, last, rfl⟩
    · have hlast : e = opening := by simpa using congrArg List.getLast? h
      exact .inl (hlast ▸ hopens)
    · rw [List.concat_eq_append] at h hcloses
      have hsplit : history ++ [e] = (earlier ++ opening :: before) ++ [last] := by simpa using h
      obtain ⟨rfl, hlast⟩ := List.append_inj' hsplit rfl
      obtain rfl : e = last := by simpa using hlast
      refine .inr ⟨⟨earlier, opening, before, rfl, hopens, ?_⟩, hcloses e (by simp)⟩
      intro other hother
      exact hcloses other (by simp [hother])
  · rintro (hopens | ⟨⟨earlier, opening, since, rfl, hopens, hcloses⟩, hlast⟩)
    · exact ⟨history, e, [], rfl, hopens, by simp⟩
    · refine ⟨earlier, opening, since ++ [e], by simp, hopens, ?_⟩
      intro other hother
      rcases List.mem_append.1 hother with hother | hother
      · exact hcloses other hother
      · obtain rfl := List.mem_singleton.1 hother
        exact hlast

theorem numbers_append (before after : List Exchange) :
    numbers (before ++ after) = numbers before ++ numbers after :=
  List.filterMap_append

end Exchange

namespace SessionManager

open Exchange (numbers IsLive isLive_concat)

variable {σ : Type} {answer : (op : PlatformOp) → StateM σ op.Answer}
  {m : SessionManager} {id : UInt32}

theorem find?_cons_self (next : UInt32) (s : Session) (rest : List (UInt32 × Session)) :
    (SessionManager.mk next ((id, s) :: rest)).find? id = some s := by
  simp [find?]

theorem find?_others_self (m : SessionManager) (next id : UInt32) :
    (SessionManager.mk next (m.others id)).find? id = none := by
  simp [find?, others]

theorem find?_others_of_ne (m : SessionManager) {other : UInt32} (next : UInt32) (h : other ≠ id) :
    (SessionManager.mk next (m.others id)).find? other = m.find? other := by
  simp only [find?, others, List.find?_filter]
  congr 2
  funext s
  by_cases hs : s.1 = other <;> simp [hs, h]

theorem find?_cons_of_ne {other : UInt32} (next : UInt32) (s : Session)
    (rest : List (UInt32 × Session)) (h : other ≠ id) :
    (SessionManager.mk next ((id, s) :: rest)).find? other =
      (SessionManager.mk next rest).find? other := by
  have hne : id ≠ other := fun heq => h heq.symm
  simp [find?, hne]

/-- The number of the session that is opened after `count` others. -/
def numberAfter (count : Nat) : UInt32 := UInt32.ofNat (count + 1)

theorem toNat_numberAfter {count : Nat} (h : count + 1 < 2 ^ 32) :
    (numberAfter count).toNat = count + 1 :=
  UInt32.toNat_ofNat_of_lt' h

theorem numberAfter_eq_iff {i j : Nat} (h : i ≤ j) :
    numberAfter j = numberAfter i ↔ 2 ^ 32 ∣ j - i := by
  rw [← UInt32.toNat_inj, numberAfter, numberAfter, UInt32.toNat_ofNat', UInt32.toNat_ofNat']
  omega

/-- The slots of the call that opens a session: all four are unused. -/
def NoSlots (slots : Slots) : Prop := slots.types = [.none, .none, .none, .none]

theorem openSession_of_ne (m : SessionManager) {uuid : Uuid} (h : uuid ≠ Gateway.uuid)
    (slots : Slots) :
    m.openSession uuid slots = (.error ⟨Code.itemNotFound, .tee⟩, m) := by
  rw [openSession, if_pos h]
  rfl

theorem openSession_of_slots (m : SessionManager) {slots : Slots} (h : ¬NoSlots slots) :
    m.openSession Gateway.uuid slots = (.error ⟨Code.badParameters, .trustedApp⟩, m) := by
  have hslots : ¬slots.types = [.none, .none, .none, .none] := h
  simp only [openSession, ne_eq, not_true_eq_false, if_false, Session.start, if_neg hslots]
  rfl

theorem openSession_eq (m : SessionManager) {slots : Slots} (h : NoSlots slots) :
    m.openSession Gateway.uuid slots =
      (.ok m.next, ⟨m.next + 1, (m.next, ⟨true⟩) :: m.others m.next⟩) := by
  have hslots : slots.types = [.none, .none, .none, .none] := h
  simp only [openSession, ne_eq, not_true_eq_false, if_false, Session.start, if_pos hslots]

/-- A session is opened only for the gateway's name and without slots. -/
theorem openSession_eq_ok {uuid : Uuid} {slots : Slots} {m' : SessionManager}
    (h : m.openSession uuid slots = (.ok id, m')) :
    uuid = Gateway.uuid ∧ NoSlots slots ∧ id = m.next := by
  by_cases huuid : uuid = Gateway.uuid
  · subst huuid
    by_cases hslots : NoSlots slots
    · rw [openSession_eq m hslots] at h
      cases h
      exact ⟨rfl, hslots, rfl⟩
    · rw [openSession_of_slots m hslots] at h
      cases h
  · rw [openSession_of_ne m huuid] at h
    cases h

theorem closeSession_of_found {s : Session} (h : m.find? id = some s) :
    m.closeSession id = (.ok (), ⟨m.next, m.others id⟩) := by
  rw [closeSession, h]

theorem closeSession_of_none (h : m.find? id = none) :
    m.closeSession id = (.error unavailable, m) := by
  rw [closeSession, h]

/-- The counter and the table of sessions are what a history says. -/
structure Follows (m : SessionManager) (history : List Exchange) : Prop where
  next : m.next = numberAfter (numbers history).length
  given : ∀ i id, (numbers history)[i]? = some id → id = numberAfter i
  live : ∀ id, IsLive history id → m.find? id = some ⟨true⟩
  gone : ∀ id, ¬IsLive history id → m.find? id = none

theorem follows_empty : Follows empty [] where
  next := rfl
  given i id h := by simp [numbers] at h
  live id h := absurd h (Exchange.not_isLive_nil id)
  gone id _ := rfl

theorem Follows.same {history : List Exchange} (h : Follows m history) {e : Exchange}
    (hopens : e.opens? = none) (hcloses : e.closes? = none) : Follows m (history ++ [e]) := by
  have hnumbers : numbers (history ++ [e]) = numbers history := by
    simp [numbers, hopens]
  have hlive : ∀ id, IsLive (history ++ [e]) id ↔ IsLive history id := by
    intro id
    simp [isLive_concat, hopens, hcloses]
  refine ⟨?_, ?_, ?_, ?_⟩
  · rw [hnumbers]
    exact h.next
  · rw [hnumbers]
    exact h.given
  · intro id hid
    exact h.live id ((hlive id).1 hid)
  · intro id hid
    exact h.gone id fun hbefore => hid ((hlive id).2 hbefore)

theorem Follows.opened {history : List Exchange} (h : Follows m history) (call : SessionCall) :
    Follows ⟨m.next + 1, (m.next, ⟨true⟩) :: m.others m.next⟩
      (history ++ [⟨call, .opened (.ok m.next)⟩]) := by
  have hnumbers : numbers (history ++ [⟨call, .opened (.ok m.next)⟩]) =
      numbers history ++ [m.next] := by
    simp [numbers, Exchange.opens?]
  have hlive : ∀ id, IsLive (history ++ [⟨call, .opened (.ok m.next)⟩]) id ↔
      m.next = id ∨ IsLive history id := by
    intro id
    simp [isLive_concat, Exchange.opens?, Exchange.closes?]
  refine ⟨?_, ?_, ?_, ?_⟩
  · rw [hnumbers, List.length_append, List.length_singleton]
    simp only [h.next, numberAfter]
    exact (UInt32.ofNat_add _ 1).symm
  · intro i id hid
    rw [hnumbers, List.getElem?_append] at hid
    split at hid
    · exact h.given i id hid
    · next hi =>
      obtain ⟨hzero, rfl⟩ : i - (numbers history).length = 0 ∧ m.next = id := by
        simpa [List.getElem?_singleton] using hid
      have hlast : i = (numbers history).length := by omega
      rw [hlast]
      exact h.next
  · intro id hid
    by_cases heq : id = m.next
    · subst heq
      exact find?_cons_self _ _ _
    · rw [find?_cons_of_ne _ _ _ heq, find?_others_of_ne m _ heq]
      exact h.live id (((hlive id).1 hid).resolve_left fun hnext => heq hnext.symm)
  · intro id hid
    have hbefore := fun hlives => hid ((hlive id).2 hlives)
    have heq : id ≠ m.next := fun heq => hbefore (.inl heq.symm)
    rw [find?_cons_of_ne _ _ _ heq, find?_others_of_ne m _ heq]
    exact h.gone id fun hlives => hbefore (.inr hlives)

theorem Follows.closed {history : List Exchange} (h : Follows m history) (id : UInt32) :
    Follows ⟨m.next, m.others id⟩ (history ++ [⟨.closeSession id, .closed (.ok ())⟩]) := by
  have hnumbers : numbers (history ++ [⟨.closeSession id, .closed (.ok ())⟩]) =
      numbers history := by
    simp [numbers, Exchange.opens?]
  have hlive : ∀ other, IsLive (history ++ [⟨.closeSession id, .closed (.ok ())⟩]) other ↔
      IsLive history other ∧ id ≠ other := by
    intro other
    simp [isLive_concat, Exchange.opens?, Exchange.closes?]
  refine ⟨?_, ?_, ?_, ?_⟩
  · rw [hnumbers]
    exact h.next
  · rw [hnumbers]
    exact h.given
  · intro other hother
    obtain ⟨hbefore, hne⟩ := (hlive other).1 hother
    rw [find?_others_of_ne m _ hne.symm]
    exact h.live other hbefore
  · intro other hother
    by_cases heq : other = id
    · subst heq
      exact find?_others_self m _ _
    · rw [find?_others_of_ne m _ heq]
      exact h.gone other fun hlives => hother ((hlive other).2 ⟨hlives, fun hid => heq hid.symm⟩)

theorem Follows.serve {history : List Exchange} (h : Follows m history) (g : Gateway)
    (call : SessionCall) (s : σ) :
    Follows (serve g answer call m s).2.1 (history ++ [⟨call, (serve g answer call m s).1⟩]) := by
  cases call with
  | openSession uuid slots =>
    simp only [SessionManager.serve]
    by_cases huuid : uuid = Gateway.uuid
    · subst huuid
      by_cases hslots : NoSlots slots
      · rw [openSession_eq m hslots]
        exact h.opened _
      · rw [openSession_of_slots m hslots]
        exact h.same rfl rfl
    · rw [openSession_of_ne m huuid]
      exact h.same rfl rfl
  | invoke fuel session command slots => exact h.same rfl rfl
  | closeSession id =>
    simp only [SessionManager.serve]
    cases hfound : m.find? id with
    | some s =>
      rw [closeSession_of_found hfound]
      exact h.closed id
    | none =>
      rw [closeSession_of_none hfound]
      exact h.same rfl rfl

theorem Follows.serveAll {history : List Exchange} (h : Follows m history) (g : Gateway)
    (calls : List SessionCall) (s : σ) :
    Follows (serveAll g answer calls m s).2.1 (history ++ (serveAll g answer calls m s).1) := by
  induction calls generalizing history m s with
  | nil =>
    rw [SessionManager.serveAll, List.append_nil]
    exact h
  | cons call rest ih =>
    have hstep : Follows (SessionManager.serve g answer call m s).2.1
        (history ++ [⟨call, (SessionManager.serve g answer call m s).1⟩]) := h.serve g call s
    have hrest := ih hstep (SessionManager.serve g answer call m s).2.2
    rw [List.append_assoc] at hrest
    exact hrest

theorem follows_serveAll (g : Gateway) (answer : (op : PlatformOp) → StateM σ op.Answer)
    (calls : List SessionCall) (s : σ) :
    Follows (serveAll g answer calls empty s).2.1 (serveAll g answer calls empty s).1 :=
  follows_empty.serveAll g calls s

/-- A command that fails in an open session fails as the application's own. -/
theorem origin_of_invoke {g : Gateway} {fuel : Nat} {command : UInt32}
    {slots changed : Slots} {before after : σ} {e : ErrorCode}
    (h : ComesTo (I := platformInterface) answer (Session.invoke ⟨true⟩ g fuel command slots) before
      (.error e, changed) after) : e.origin = .trustedApp := by
  simp only [Session.invoke, if_true] at h
  obtain ⟨⟨ended, left⟩, t, -, hrest⟩ := comesTo_bind.1 h
  cases ended with
  | error failure =>
    obtain ⟨heq, -⟩ := comesTo_pure.1 hrest
    cases heq
    rfl
  | ok u =>
    obtain ⟨heq, -⟩ := comesTo_pure.1 hrest
    cases heq

theorem invoke_of_found (g : Gateway) (fuel : Nat) {s : Session} (h : m.find? id = some s)
    (command : UInt32)
    (slots : Slots) : m.invoke g fuel id command slots = s.invoke g fuel command slots := by
  rw [invoke, h]

theorem serve_invoke_of_none (g : Gateway) (fuel : Nat) (h : m.find? id = none) (command : UInt32)
    (slots : Slots) (s : σ) :
    serve g answer (.invoke fuel id command slots) m s =
      (.invoked (some (.error unavailable, slots)), m, s) := by
  simp only [serve, invoke, h]
  rfl

/-- The life of sessions, after any calls.  The numbers given out so far count up
from one.  A session is opened for the gateway's name, which is looked at first,
and without slots; it gets the next number, and no other open session is touched;
what is not opened leaves everything as it was.  A number under which a session
was opened and not closed since takes commands and can be closed.  A command in
it is the same program whatever the number, and if it fails, the application
itself says so.  Any other number is refused, and nothing changes. -/
theorem sessions_live_until_closed (g : Gateway) (answer : (op : PlatformOp) → StateM σ op.Answer)
    (calls : List SessionCall) (s : σ) :
    let history := (serveAll g answer calls empty s).1
    let m := (serveAll g answer calls empty s).2.1
    let t := (serveAll g answer calls empty s).2.2
    (∀ i id, (numbers history)[i]? = some id → i + 1 < 2 ^ 32 → id.toNat = i + 1) ∧
      (∀ uuid slots,
        (uuid ≠ Gateway.uuid →
          serve g answer (.openSession uuid slots) m t =
            (.opened (.error ⟨Code.itemNotFound, .tee⟩), m, t)) ∧
        (uuid = Gateway.uuid → ¬NoSlots slots →
          serve g answer (.openSession uuid slots) m t =
            (.opened (.error ⟨Code.badParameters, .trustedApp⟩), m, t)) ∧
        (uuid = Gateway.uuid → NoSlots slots → ∃ id m',
          serve g answer (.openSession uuid slots) m t = (.opened (.ok id), m', t) ∧
            ((numbers history).length + 1 < 2 ^ 32 → id.toNat = (numbers history).length + 1) ∧
            m'.find? id = some ⟨true⟩ ∧ ∀ other, other ≠ id → m'.find? other = m.find? other)) ∧
      (∀ id, IsLive history id →
        (∀ fuel command slots, m.invoke g fuel id command slots =
          Session.invoke ⟨true⟩ g fuel command slots) ∧
        ∃ m', serve g answer (.closeSession id) m t = (.closed (.ok ()), m', t) ∧
          m'.find? id = none ∧ ∀ other, other ≠ id → m'.find? other = m.find? other) ∧
      (∀ id, ¬IsLive history id →
        (∀ fuel command slots, serve g answer (.invoke fuel id command slots) m t =
          (.invoked (some (.error ⟨Code.badState, .api⟩, slots)), m, t)) ∧
        serve g answer (.closeSession id) m t = (.closed (.error ⟨Code.badState, .api⟩), m, t)) ∧
      ∀ fuel command slots before after e changed,
        ComesTo (I := platformInterface) answer (Session.invoke ⟨true⟩ g fuel command slots) before
        (.error e, changed) after →
          e.origin = .trustedApp := by
  intro history m t
  have hfollows : Follows m history := follows_serveAll g answer calls s
  refine ⟨?_, ?_, ?_, ?_, ?_⟩
  · intro i id hid hi
    rw [hfollows.given i id hid]
    exact toNat_numberAfter hi
  · intro uuid slots
    refine ⟨?_, ?_, ?_⟩
    · intro huuid
      simp only [serve, openSession_of_ne m huuid]
    · rintro rfl hslots
      simp only [serve, openSession_of_slots m hslots]
    · rintro rfl hslots
      refine ⟨m.next, ⟨m.next + 1, (m.next, ⟨true⟩) :: m.others m.next⟩, ?_, ?_,
        find?_cons_self _ _ _, ?_⟩
      · simp only [serve, openSession_eq m hslots]
      · intro hcount
        rw [hfollows.next]
        exact toNat_numberAfter hcount
      · intro other hother
        rw [find?_cons_of_ne _ _ _ hother, find?_others_of_ne m _ hother]
  · intro id hlive
    have hfound := hfollows.live id hlive
    refine ⟨?_, ⟨m.next, m.others id⟩, ?_, find?_others_self m _ _, ?_⟩
    · intro fuel command slots
      exact invoke_of_found g fuel hfound command slots
    · simp only [serve, closeSession_of_found hfound]
    · intro other hother
      exact find?_others_of_ne m _ hother
  · intro id hgone
    have hnone := hfollows.gone id hgone
    refine ⟨?_, ?_⟩
    · intro fuel command slots
      exact serve_invoke_of_none g fuel hnone command slots t
    · simp only [serve, closeSession_of_none hnone]
      rfl
  · intro fuel command slots before after e changed h
    exact origin_of_invoke h

theorem Follows.number_of_opening {history earlier since : List Exchange}
    {opening : Exchange} (h : Follows m history)
    (hsplit : history = earlier ++ opening :: since) (hopens : opening.opens? = some id) :
    id = numberAfter (numbers earlier).length := by
  apply h.given
  rw [hsplit, Exchange.numbers_append]
  simp [numbers, hopens]

/-- A new session takes the place of one that lives exactly if a multiple of 2³²
sessions were opened since, that one included.  So the first 2³² sessions take
no other's place. -/
theorem new_session_replaces_iff (g : Gateway) (answer : (op : PlatformOp) → StateM σ op.Answer)
    (calls : List SessionCall) (s : σ) (uuid : Uuid) (slots : Slots) :
    let history := (serveAll g answer calls empty s).1
    let m := (serveAll g answer calls empty s).2.1
    (∀ earlier opening since other, history = earlier ++ opening :: since →
        opening.opens? = some other →
        (∀ e ∈ since, e.closes? ≠ some other) →
        ((m.openSession uuid slots).1 = .ok other ↔
          uuid = Gateway.uuid ∧ NoSlots slots ∧ 2 ^ 32 ∣ (numbers (opening :: since)).length)) ∧
      ((numbers history).length < 2 ^ 32 → ∀ id, (m.openSession uuid slots).1 = .ok id →
        ¬IsLive history id) := by
  intro history m
  have hfollows : Follows m history := follows_serveAll g answer calls s
  have hreplaces : ∀ earlier opening since other, history = earlier ++ opening :: since →
      opening.opens? = some other →
      ((m.openSession uuid slots).1 = .ok other ↔
        uuid = Gateway.uuid ∧ NoSlots slots ∧ 2 ^ 32 ∣ (numbers (opening :: since)).length) := by
    intro earlier opening since other hsplit hopens
    have hother := hfollows.number_of_opening hsplit hopens
    have hcount : (numbers history).length = (numbers earlier).length +
        (numbers (opening :: since)).length := by
      rw [hsplit, Exchange.numbers_append, List.length_append]
    have hagain : m.next = other ↔ 2 ^ 32 ∣ (numbers history).length -
        (numbers earlier).length := by
      rw [hfollows.next, hother]
      exact numberAfter_eq_iff (by omega)
    rw [hcount, Nat.add_sub_cancel_left] at hagain
    rw [← hagain]
    constructor
    · intro hopened
      have hpair : m.openSession uuid slots = (.ok other, (m.openSession uuid slots).2) :=
        Prod.ext hopened rfl
      obtain ⟨huuid, hslots, heq⟩ := openSession_eq_ok hpair
      exact ⟨huuid, hslots, heq.symm⟩
    · rintro ⟨rfl, hslots, rfl⟩
      rw [openSession_eq m hslots]
  refine ⟨fun earlier opening since other hsplit hopens _ =>
    hreplaces earlier opening since other hsplit hopens, ?_⟩
  rintro hfew id hopened ⟨earlier, opening, since, hsplit, hopens, -⟩
  obtain ⟨-, -, hdivides⟩ := (hreplaces earlier opening since id hsplit hopens).1 hopened
  have hcount : (numbers history).length = (numbers earlier).length +
      (numbers (opening :: since)).length := by
    rw [hsplit, Exchange.numbers_append, List.length_append]
  have hpositive : 0 < (numbers (opening :: since)).length := by simp [numbers, hopens]
  have := Nat.le_of_dvd hpositive hdivides
  omega

def opening : SessionCall := .openSession Gateway.uuid {}

/-- Calls that open so many sessions and close each at once.  The first gets this number. -/
def visits (i : Nat) : Nat → List SessionCall
  | 0 => []
  | count + 1 => opening :: .closeSession (numberAfter i) :: visits (i + 1) count

theorem serve_opening (g : Gateway) (m : SessionManager) (s : σ) : serve g answer opening m s =
    (.opened (.ok m.next), ⟨m.next + 1, (m.next, ⟨true⟩) :: m.others m.next⟩, s) := by
  have hslots : NoSlots {} := rfl
  simp only [opening, serve, openSession_eq m hslots]

theorem serveAll_cons (g : Gateway) (call : SessionCall) (rest : List SessionCall)
    (m : SessionManager) (s : σ) :
    serveAll g answer (call :: rest) m s =
      (⟨call, (serve g answer call m s).1⟩ ::
          (serveAll g answer rest (serve g answer call m s).2.1 (serve g answer call m s).2.2).1,
        (serveAll g answer rest (serve g answer call m s).2.1 (serve g answer call m s).2.2).2) :=
  rfl

/-- They leave nothing but the counter changed, and no session of another number is closed. -/
theorem serveAll_visits (g : Gateway) (answer : (op : PlatformOp) → StateM σ op.Answer)
    (count : Nat) {i : Nat} (hnext : m.next = numberAfter i) (s : σ) :
    let ran := serveAll g answer (visits i count) m s
    ran.2.1.next = numberAfter (i + count) ∧ (∀ id, m.find? id = none → ran.2.1.find? id = none) ∧
      ∀ e ∈ ran.1, ∀ id, e.closes? = some id → ∃ j, i ≤ j ∧ j < i + count ∧ id = numberAfter j := by
  induction count generalizing i m with
  | zero => exact ⟨hnext, fun _ hnone => hnone, List.forall_mem_nil _⟩
  | succ count ih =>
    let opened : SessionManager := ⟨m.next + 1, (m.next, ⟨true⟩) :: m.others m.next⟩
    let closed : SessionManager := ⟨m.next + 1, opened.others m.next⟩
    have hclosed : serve g answer (.closeSession m.next) opened s =
        (.closed (.ok ()), closed, s) := by
      have hfound : opened.find? m.next = some ⟨true⟩ := find?_cons_self _ _ _
      rw [serve, closeSession_of_found hfound]
    have hlater : closed.next = numberAfter (i + 1) := by
      rw [numberAfter, UInt32.ofNat_add]
      exact congrArg (· + 1) hnext
    have hnone : ∀ id, m.find? id = none → closed.find? id = none := by
      intro id hid
      by_cases hsame : id = m.next
      · rw [hsame, find?_others_self]
      · rw [find?_others_of_ne opened _ hsame, find?_cons_of_ne _ _ _ hsame,
          find?_others_of_ne m _ hsame, hid]
    obtain ⟨hend, hrest, hcloses⟩ := ih hlater
    have hran : serveAll g answer (visits i (count + 1)) m s =
        (⟨opening, .opened (.ok m.next)⟩ :: ⟨.closeSession m.next, .closed (.ok ())⟩ ::
            (serveAll g answer (visits (i + 1) count) closed s).1,
          (serveAll g answer (visits (i + 1) count) closed s).2) := by
      rw [visits, ← hnext, serveAll_cons, serve_opening, serveAll_cons, hclosed]
    rw [hran]
    refine ⟨hend.trans (congrArg numberAfter (by omega)), fun id hid => hrest id (hnone id hid), ?_⟩
    intro e he id hid
    rcases List.mem_cons.1 he with rfl | he
    · cases hid
    rcases List.mem_cons.1 he with rfl | he
    · obtain rfl : m.next = id := Option.some.inj hid
      exact ⟨i, Nat.le_refl i, by omega, hnext⟩
    · obtain ⟨j, hfirst, hlast, rfl⟩ := hcloses e he id hid
      exact ⟨j, by omega, by omega, rfl⟩

/-- A session is opened and kept, and then fewer than 2³² others are opened and closed one by
one.  Only the first lives, and the numbers go on. -/
theorem isLive_visits (g : Gateway) (answer : (op : PlatformOp) → StateM σ op.Answer) {count : Nat}
    (hfew : count < 2 ^ 32) (s : σ) :
    let ran := serveAll g answer (opening :: visits 1 count) empty s
    (∀ id, IsLive ran.1 id ↔ id = 1) ∧
      (ran.2.1.openSession Gateway.uuid {}).1 = .ok (numberAfter (1 + count)) := by
  intro ran
  have hslots : NoSlots {} := rfl
  let kept : SessionManager := ⟨2, [(1, ⟨true⟩)]⟩
  have hkept : kept.next = numberAfter 1 := rfl
  obtain ⟨hnext, hnone, hcloses⟩ := serveAll_visits g answer count hkept s
  have hran : ran = (⟨opening, .opened (.ok 1)⟩ :: (serveAll g answer (visits 1 count) kept s).1,
      (serveAll g answer (visits 1 count) kept s).2) := rfl
  rw [openSession_eq _ hslots]
  refine ⟨fun id => ⟨fun hlives => ?_, ?_⟩, congrArg Except.ok hnext⟩
  · by_contra hother
    have hunknown : kept.find? id = none := find?_cons_of_ne 2 ⟨true⟩ [] hother
    have hfound := (follows_serveAll g answer (opening :: visits 1 count) s).live id hlives
    cases hfound.symm.trans (hnone id hunknown)
  · rintro rfl
    refine ⟨[], _, _, congrArg Prod.fst hran, rfl, fun e he hfirst => ?_⟩
    obtain ⟨j, hafter, hbefore, hsame⟩ := hcloses e he 1 hfirst
    have hagain : numberAfter j = numberAfter 0 := hsame.symm
    obtain ⟨k, hk⟩ := (numberAfter_eq_iff (Nat.zero_le j)).1 hagain
    omega

/-- A session is opened and kept, and then 2³² - 1 others are opened and closed one by one.
The next session has the number of the first, which is the only one that lives. -/
theorem first_session_is_replaced :
    let g : Gateway := { secret := ⟨bytes (List.replicate 32 0), size_bytes _⟩ }
    let host : Host := { process := { root := none } }
    let ran := serveAll g Host.answer (opening :: visits 1 (2 ^ 32 - 1)) empty host
    (∀ id, IsLive ran.1 id ↔ id = 1) ∧ (ran.2.1.openSession Gateway.uuid {}).1 = .ok 1 := by
  intro g host
  have hfew : 2 ^ 32 - 1 < 2 ^ 32 := by omega
  have hagain : numberAfter (1 + (2 ^ 32 - 1)) = 1 := by decide
  exact hagain ▸ isLive_visits g Host.answer hfew host

end SessionManager
end SealedLua
