import NebLite.Payment.PaymentService
import NebLite.Rides.Lifecycle
import Mathlib.Data.List.TakeWhile
import Mathlib.Algebra.Order.BigOperators.Group.List

/-! The source address of a payment notification behind one trusted proxy, and how far
a client decides it through the header that it sends. -/

namespace NebLite

open Atomic

/-- The parts of a request that tell where it comes from. -/
structure Request where
  forwardedFor : Option String
  remoteAddress : Option String
  ip : Option String

/-- `split(',')[0]`. -/
def firstElement (header : String) : String := .ofList (header.toList.takeWhile (· ≠ ','))

def extractClientIp (request : Request) : String :=
  let first := (request.forwardedFor.map fun header => trim (firstElement header)).getD ""
  let remote := (request.remoteAddress.map trim).getD ""
  if first ≠ "" then first
  else if remote ≠ "" then remote
  else (request.ip.map trim).getD ""

/-- The text of a network address. -/
structure Address where
  text : String
  noComma : ',' ∉ text.toList

/-- The header that the proxy forwards: it appends the peer that it saw to what the
client has sent. -/
def forwardedHeader (peer : Address) : Option String → String
  | none => peer.text
  | some sent => sent ++ ", " ++ peer.text

/-- With `trust proxy` 1 the `ip` of a request is the peer that the proxy saw. -/
def Request.viaProxy (proxy peer : Address) (sent : Option String) : Request where
  forwardedFor := some (forwardedHeader peer sent)
  remoteAddress := some proxy.text
  ip := some peer.text

/-- `isIpAllowed` on the addresses of a source. -/
def World.Allows (w : World) (sourceIp : String) : Prop :=
  (w.whitelist.any fun ip => ip ∈ (normalizeIpAddresses sourceIp).filter fun a => !a.isEmpty) = true

instance (w : World) (sourceIp : String) : Decidable (w.Allows sourceIp) :=
  inferInstanceAs (Decidable (_ = true))

/-- The notification is turned away because of its source. -/
def World.RejectsSource (env : Environment) (w : World) (payload : PaymentNotification)
    (sourceIp : String) (now : Time) : Prop :=
  ((handlePaymentNotification payload sourceIp now).run (handle env) w).1 =
    .error (.unauthorized "Source IP not allowed")

/-- A client can write the entry into its header, after the prefix of a mapped address. -/
def Forgeable (entry : String) : Prop :=
  ',' ∉ entry.toList ∧ ∃ c ∈ entry.toList.getLast?, isTrimmed c = false

instance (entry : String) : Decidable (Forgeable entry) := inferInstanceAs (Decidable (_ ∧ _))

section Trim

variable {s : String}

theorem toList_trim (s : String) : (trim s).toList =
    ((s.toList.dropWhile isTrimmed).reverse.dropWhile isTrimmed).reverse := by
  simp [trim]

theorem mem_trim {c : Char} (h : c ∈ (trim s).toList) : c ∈ s.toList := by
  rw [toList_trim, List.mem_reverse] at h
  have hr := (List.dropWhile_suffix _).subset h
  rw [List.mem_reverse] at hr
  exact (List.dropWhile_suffix _).subset hr

theorem mem_firstElement {c : Char} (h : c ∈ (firstElement s).toList) : c ∈ s.toList ∧ c ≠ ',' := by
  simp only [firstElement, String.toList_ofList] at h
  exact ⟨(List.takeWhile_prefix _).subset h, by simpa using List.mem_takeWhile_imp h⟩

/-- What is left does not end in white space. -/
theorem trim_last {c : Char} (h : (trim s).toList.getLast? = some c) : isTrimmed c = false := by
  rw [toList_trim, List.getLast?_reverse] at h
  have hd := List.head?_dropWhile_not isTrimmed (s.toList.dropWhile isTrimmed).reverse
  rw [h] at hd
  simpa using hd

/-- A text that neither begins nor ends in white space stays. -/
theorem trim_eq {c d : Char} (hc : s.toList.head? = some c) (hcs : isTrimmed c = false)
    (hd : s.toList.getLast? = some d) (hds : isTrimmed d = false) : trim s = s := by
  have h1 : s.toList.dropWhile isTrimmed = s.toList := by
    cases hs : s.toList with
    | nil => rfl
    | cons x xs =>
      rw [hs] at hc
      obtain rfl : x = c := by simpa using hc
      simp [hcs]
  have h2 : s.toList.reverse.dropWhile isTrimmed = s.toList.reverse := by
    rw [← List.head?_reverse] at hd
    cases hs : s.toList.reverse with
    | nil => rfl
    | cons x xs =>
      rw [hs] at hd
      obtain rfl : x = d := by simpa using hd
      simp [hds]
  rw [trim, h1, h2, List.reverse_reverse, String.ofList_toList]

end Trim

section Decision

variable {env : Environment} {w : World} {source : String}

theorem allows_iff : w.Allows source ↔ ∃ e ∈ w.whitelist, e ∈ normalizeIpAddresses source ∧ e ≠ "" := by
  simp [World.Allows, List.mem_filter]

/-- A program that notifies and then returns. -/
theorem Announces.outcome {α : Type} {p : Service Unit} (hp : Announces env p) (a : α) (v : World) :
    ((p >>= fun _ => pure a).run (handle env) v).1 = .ok a := by
  obtain ⟨ns, hrun⟩ := hp v
  rw [Program.run_bind_ok _ hrun]
  rfl

/-- Past the source check no other refusal is UNAUTHORIZED. -/
theorem rejectsSource_iff (payload : PaymentNotification) (now : Time) :
    w.RejectsSource env payload source now ↔ ¬ w.Allows source := by
  unfold World.RejectsSource handlePaymentNotification
  rw [Program.run_bind_ok _ (run_call env (.isIpAllowed (normalizeIpAddresses source)) w)]
  by_cases h : w.Allows source
  swap
  · have hno : ¬ (w.whitelist.any fun ip => ip ∈ (normalizeIpAddresses source).filter
        fun a => !a.isEmpty) = true := h
    simp only [↓Program.throw_seq]
    rw [if_pos hno]
    exact iff_of_true rfl h
  refine iff_of_false ?_ (not_not.mpr h)
  have hyes : ¬ ¬ (w.whitelist.any fun ip => ip ∈ (normalizeIpAddresses source).filter
      fun a => !a.isEmpty) = true := not_not.mpr h
  simp only [↓Program.throw_seq]
  rw [if_neg hyes]
  cases payload.orderId with
  | none => simp
  | some orderId =>
    simp only
    rw [Program.run_bind_ok _ (run_call env (.findDetailByOrder orderId) w)]
    cases w.findDetailByOrder orderId with
    | none => simp
    | some d =>
      simp only
      rw [Program.run_bind_ok _ (run_findById env d.rideId w)]
      cases w.rides.find d.rideId with
      | none => simp
      | some r =>
        simp only
        rw [Program.run_bind_ok _ (run_call env _ w), Program.run_bind_ok _ (run_findById env _ _)]
        split
        · rw [Announces.outcome (p := notifyRidePaid _ _) announces_both]
          simp
        · simp

/-- Where a request can come from: an address of the proxy's, or a text without commas
that the client has chosen. -/
theorem noComma_clientIp (proxy peer : Address) (sent : Option String) :
    ',' ∉ (extractClientIp (.viaProxy proxy peer sent)).toList := by
  unfold extractClientIp Request.viaProxy
  simp only [Option.map_some, Option.getD_some]
  split
  · intro h
    exact (mem_firstElement (mem_trim h)).2 rfl
  split
  · intro h
    exact proxy.noComma (mem_trim h)
  · intro h
    exact peer.noComma (mem_trim h)

/-- A text that the client sends without commas is the source. -/
theorem clientIp_sent {t : String} (hcomma : ',' ∉ t.toList) {c d : Char}
    (hc : t.toList.head? = some c) (hcs : isTrimmed c = false) (hd : t.toList.getLast? = some d)
    (hds : isTrimmed d = false) (proxy peer : Address) :
    extractClientIp (.viaProxy proxy peer (some t)) = t ∧ trim t = t := by
  have htrim : trim t = t := trim_eq hc hcs hd hds
  have hfirst : firstElement (t ++ ", " ++ peer.text) = t := by
    have hall : ∀ x ∈ t.toList, decide (x ≠ ',') = true := by
      intro x hx
      exact decide_eq_true fun he => hcomma (he ▸ hx)
    rw [firstElement, String.toList_append, String.toList_append, List.append_assoc,
      List.takeWhile_append_of_pos hall]
    simp
  have hne : t ≠ "" := by
    rintro rfl
    simp at hc
  refine ⟨?_, htrim⟩
  unfold extractClientIp Request.viaProxy forwardedHeader
  simp only [Option.map_some, Option.getD_some, hfirst, htrim]
  rw [if_pos hne]

/-- The entry under which a source passes could be written into a header. -/
theorem forgeable_of_mem {t e : String} (ht : ',' ∉ t.toList) (he : e ∈ normalizeIpAddresses t)
    (hne : e ≠ "") : Forgeable e := by
  have hcomma : ',' ∉ (trim t).toList := fun h => ht (mem_trim h)
  have hlast {l : List Char} (hl : l ≠ []) (hsame : l.getLast? = (trim t).toList.getLast?) :
      ∃ c ∈ l.getLast?, isTrimmed c = false := by
    have hc := List.getLast?_eq_some_getLast hl
    exact ⟨_, hc, trim_last (hsame ▸ hc)⟩
  have hown (hu : trim t ≠ "") : Forgeable (trim t) :=
    ⟨hcomma, hlast (fun h => hu (String.toList_eq_nil_iff.mp h)) rfl⟩
  unfold normalizeIpAddresses at he
  simp only at he
  split at he
  · cases he
  split at he
  · rcases List.mem_cons.mp he with rfl | he
    · exact hown hne
    · obtain rfl := List.mem_singleton.mp he
      refine ⟨?_, ?_⟩
      · rw [String.toList_ofList]
        exact fun h => hcomma (List.mem_of_mem_drop h)
      · rw [String.toList_ofList]
        have hlong : (trim t).toList.drop mappedPrefix.length ≠ [] := by
          intro h
          rw [h] at hne
          exact hne rfl
        apply hlast hlong
        rw [List.getLast?_drop, if_neg]
        intro hle
        exact hlong (List.drop_eq_nil_of_le hle)
  split at he
  · rcases List.mem_cons.mp he with rfl | he
    · exact hown hne
    · obtain rfl := List.mem_singleton.mp he
      have hu : (trim t).toList ≠ [] := by
        intro h
        simp_all [String.toList_eq_nil_iff]
      refine ⟨?_, ?_⟩
      · rw [String.toList_append, List.mem_append, not_or]
        exact ⟨by decide, hcomma⟩
      · rw [String.toList_append, List.getLast?_append_of_ne_nil _ hu]
        exact hlast hu rfl
  · obtain rfl := List.mem_singleton.mp he
    exact hown hne

theorem length_le_of_mem {t e : String} (he : e ∈ normalizeIpAddresses t) :
    (trim t).toList.length ≤ e.toList.length + mappedPrefix.length := by
  unfold normalizeIpAddresses at he
  simp only at he
  split at he
  · cases he
  split at he
  · rcases List.mem_cons.mp he with rfl | he
    · omega
    · obtain rfl := List.mem_singleton.mp he
      rw [String.toList_ofList, List.length_drop]
      omega
  split at he
  · rcases List.mem_cons.mp he with rfl | he
    · omega
    · obtain rfl := List.mem_singleton.mp he
      rw [String.toList_append, List.length_append]
      omega
  · obtain rfl := List.mem_singleton.mp he
    omega

/-- A forgeable entry passes under the prefix of a mapped address. -/
theorem allows_forged {e : String} (he : e ∈ w.whitelist) (hf : Forgeable e) (proxy peer : Address) :
    w.Allows (extractClientIp (.viaProxy proxy peer (some ("::ffff:" ++ e)))) := by
  obtain ⟨hcomma, c, hc, hcs⟩ := hf
  have hlist : ("::ffff:" ++ e).toList = mappedPrefix ++ e.toList := toList_mapped e
  have hnil : e.toList ≠ [] := by
    intro h
    rw [h] at hc
    cases hc
  have hsent : ',' ∉ ("::ffff:" ++ e).toList := by
    rw [hlist, List.mem_append, not_or]
    exact ⟨by decide, hcomma⟩
  have hhead : ("::ffff:" ++ e).toList.head? = some ':' := by
    rw [hlist]
    rfl
  have hlast : ("::ffff:" ++ e).toList.getLast? = some c := by
    rw [hlist, List.getLast?_append_of_ne_nil _ hnil]
    exact hc
  obtain ⟨hsource, htrim⟩ := clientIp_sent hsent hhead (by decide) hlast hcs proxy peer
  rw [hsource]
  refine allows_iff.mpr ⟨e, he, ?_, ?_⟩
  · unfold normalizeIpAddresses
    have hne : ¬ ("::ffff:" ++ e).isEmpty = true := by
      intro h
      rw [String.isEmpty_iff.mp h] at hhead
      cases hhead
    have hprefix : mappedPrefix.isPrefixOf ("::ffff:" ++ e).toList = true := by
      rw [hlist]
      exact List.isPrefixOf_iff_prefix.mpr (List.prefix_append _ _)
    simp only [htrim]
    rw [if_neg hne, if_pos hprefix, hlist, List.drop_left, String.ofList_toList]
    exact List.mem_cons_of_mem _ List.mem_cons_self
  · rintro rfl
    exact hnil rfl

/-- Some header names no entry of the whitelist. -/
theorem exists_rejected (w : World) (proxy peer : Address) :
    ∃ sent, ¬ w.Allows (extractClientIp (.viaProxy proxy peer (some sent))) := by
  obtain ⟨n, hn⟩ : ∃ n, n = (w.whitelist.map fun e => e.toList.length).sum + mappedPrefix.length + 1 :=
    ⟨_, rfl⟩
  have hpos : n ≠ 0 := by omega
  have hlist : (String.ofList (List.replicate n 'a')).toList = List.replicate n 'a' := String.toList_ofList
  have hcomma : ',' ∉ (String.ofList (List.replicate n 'a')).toList := by
    rw [hlist]
    simp
  have hhead : (String.ofList (List.replicate n 'a')).toList.head? = some 'a' := by
    rw [hlist, List.head?_replicate, if_neg hpos]
  have hlast : (String.ofList (List.replicate n 'a')).toList.getLast? = some 'a' := by
    rw [hlist, List.getLast?_replicate, if_neg hpos]
  refine ⟨.ofList (List.replicate n 'a'), ?_⟩
  obtain ⟨hsource, htrim⟩ := clientIp_sent hcomma hhead (by decide) hlast (by decide) proxy peer
  rw [hsource, allows_iff]
  rintro ⟨e, he, hm, -⟩
  have hlong := length_le_of_mem hm
  rw [htrim, hlist, List.length_replicate] at hlong
  have hsum : e.toList.length ≤ (w.whitelist.map fun e => e.toList.length).sum :=
    List.le_sum_of_mem (List.mem_map_of_mem he)
  omega

end Decision

/-- For all headers that a client may send the source check decides alike exactly when the
whitelist has no entry that can be written into a header. -/
theorem source_check_blind_iff (env : Environment) (w : World) (proxy peer : Address)
    (payload : PaymentNotification) (now : Time) :
    (∀ sent sent' : Option String,
      w.RejectsSource env payload (extractClientIp (.viaProxy proxy peer sent)) now ↔
      w.RejectsSource env payload (extractClientIp (.viaProxy proxy peer sent')) now) ↔
    ∀ e ∈ w.whitelist, ¬ Forgeable e := by
  simp only [rejectsSource_iff]
  constructor
  · intro h e he hf
    obtain ⟨sent, hno⟩ := exists_rejected w proxy peer
    exact (h (some sent) (some ("::ffff:" ++ e))).mp hno (allows_forged he hf proxy peer)
  · intro h sent sent'
    have hno (t : Option String) : ¬ w.Allows (extractClientIp (.viaProxy proxy peer t)) := by
      intro ha
      obtain ⟨e, he, hm, hne⟩ := allows_iff.mp ha
      exact h e he (forgeable_of_mem (noComma_clientIp proxy peer t) hm hne)
    exact iff_of_true (hno sent) (hno sent')

def trustedProxy : Address := ⟨"10.0.0.9", by decide⟩

def foreignPeer : Address := ⟨"6.6.6.6", by decide⟩

/-- A client at 6.6.6.6 is turned away, and passes when it sends the address of the
payment provider. -/
theorem forwarded_address_passes :
    ¬ ∀ sent sent' : Option String,
      (World.initial ["10.0.0.1"]).RejectsSource (.around [7, 8]) ⟨some 0, some "settlement", none, []⟩
        (extractClientIp (.viaProxy trustedProxy foreignPeer sent)) 7 ↔
      (World.initial ["10.0.0.1"]).RejectsSource (.around [7, 8]) ⟨some 0, some "settlement", none, []⟩
        (extractClientIp (.viaProxy trustedProxy foreignPeer sent')) 7 := by
  intro h
  have hsame := h none (some "10.0.0.1")
  rw [rejectsSource_iff, rejectsSource_iff] at hsame
  revert hsame
  decide +kernel

end NebLite
