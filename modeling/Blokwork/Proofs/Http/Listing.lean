import Blokwork.Http.Client
import Blokwork.Proofs.Migration.Replay
import Std.Data.String.ToNat

/-!
# What is fetched of a listing

A client asks for the pages of a listing until one is not full, and then for each listed story.
What it asks is kept in a record beside the state of the network, which changes nothing for the
client (`Client.forgets_entriesWith`). A run follows a plan (`Follows`) when it asks what is
planned and gives what is expected, or stops within the plan because of a failure; the runs of the
client are put together from runs of one request each. A server of some stories (`Client.Serves`)
may answer any request with a failure, and what it answers with success is true of its stories.

`Client.entriesWith_listed` is what a run gives and asks. `Client.serves_printed` is a server that
prints legible stories, and `Hundred` has one full page of them.
-/

namespace Blokwork.Http

variable {σ α β : Type}

/-- A request and what came of it. -/
structure Exchange where
  request : Request
  answer : Option Response

/-- An answer came, and it is one of success. -/
def succeeds (answer : Option Response) : Bool :=
  match answer with
  | some response => isSuccess response.status
  | none => false

/-- The request was answered with success. -/
def Exchange.succeeded (x : Exchange) : Bool := succeeds x.answer

/-- The exchanges are ones of a transport. -/
def Genuine (transport : Transport (StateM σ)) (made : List Exchange) : Prop :=
  ∀ x ∈ made, ∃ s, (transport x.request s).1 = x.answer

/-- A state of the network and a record of what was asked so far. -/
abbrev Recorded (σ : Type) := σ × List Exchange

/-- A transport that keeps a record. -/
def recording (transport : Transport (StateM σ)) : Transport (StateM (Recorded σ)) :=
  fun request (s, record) =>
    let (answer, s) := transport request s
    (answer, s, record ++ [⟨request, answer⟩])

/-- The client with a record of what it asks. -/
def Client.recorded (client : Client (StateM σ)) : Client (StateM (Recorded σ)) where
  baseUrl := client.baseUrl
  spaceId := client.spaceId
  token := client.token
  transport := recording client.transport
  pageLimit := client.pageLimit

/-! ## Keeping a record -/

/-- A run is the same when the record is left out. -/
def Forgets (run : StateM (Recorded σ) α) (plain : StateM σ α) : Prop :=
  ∀ s record, ((run (s, record)).1, (run (s, record)).2.1) = plain s

theorem Forgets.pure (a : α) : Forgets (σ := σ) (pure a) (pure a) := fun _ _ => rfl

theorem Forgets.bind {run : StateM (Recorded σ) α} {plain : StateM σ α}
    {next : α → StateM (Recorded σ) β} {nextPlain : α → StateM σ β} (h : Forgets run plain)
    (hnext : ∀ a, Forgets (next a) (nextPlain a)) :
    Forgets (run >>= next) (plain >>= nextPlain) := by
  intro s record
  rw [bind_apply, bind_apply, ← h s record]
  exact hnext _ _ _

theorem forgets_recording (transport : Transport (StateM σ)) (request : Request) :
    Forgets (recording transport request) (transport request) := fun _ _ => rfl

namespace Client

variable (client : Client (StateM σ)) (component : String)

theorem forgets_pageIds (page : Nat) :
    Forgets (client.recorded.pageIds component page) (client.pageIds component page) := by
  refine (forgets_recording _ _).bind fun answer => ?_
  cases answer with
  | none => exact .pure _
  | some response =>
    simp only
    split
    · exact .pure _
    · split <;> exact .pure _

theorem forgets_idsFrom (limit page : Nat) :
    Forgets (client.recorded.idsFrom component limit page)
      (client.idsFrom component limit page) := by
  induction limit generalizing page with
  | zero => exact .pure _
  | succ limit ih =>
    refine (client.forgets_pageIds component page).bind fun ids => ?_
    cases ids with
    | error f => exact .pure _
    | ok ids =>
      simp only
      split
      · exact .pure _
      · refine (ih (page + 1)).bind fun more => ?_
        cases more <;> exact .pure _

theorem forgets_story (id : String) :
    Forgets (client.recorded.story id) (client.story id) := by
  refine (forgets_recording _ _).bind fun answer => ?_
  cases answer with
  | none => exact .pure _
  | some response =>
    simp only
    split
    · exact .pure _
    · split <;> exact .pure _

theorem forgets_stories (ids : List String) :
    Forgets (client.recorded.stories ids) (client.stories ids) := by
  induction ids with
  | nil => exact .pure _
  | cons id rest ih =>
    refine (client.forgets_story id).bind fun entry => ?_
    cases entry with
    | error f => exact .pure _
    | ok entry =>
      refine ih.bind fun entries => ?_
      cases entries <;> exact .pure _

/-- The record changes nothing. -/
theorem forgets_entriesWith :
    Forgets (client.recorded.entriesWith component) (client.entriesWith component) := by
  refine (client.forgets_idsFrom component client.pageLimit 1).bind fun ids => ?_
  cases ids with
  | error f => exact .pure _
  | ok ids => exact client.forgets_stories ids

end Client

/-! ## Runs along a plan -/

/-- A run asks what is planned and gives what is expected, or it stops within the plan with a
failure: nothing is expected, or a request was not answered with success. -/
inductive Follows (transport : Transport (StateM σ)) (planned : List Request)
    (expected : Option α) (start : Recorded σ) : Except Failure α × Recorded σ → Prop
  | done {a : α} {s : σ} {made : List Exchange} : expected = some a →
      (∀ x ∈ made, x.succeeded = true) → made.map (·.request) = planned →
      Genuine transport made →
      Follows transport planned expected start (.ok a, s, start.2 ++ made)
  | failed {f : Failure} {s : σ} {made : List Exchange} :
      (expected = none ∨ ∃ x ∈ made, x.succeeded = false) → made.map (·.request) <+: planned →
      Genuine transport made →
      Follows transport planned expected start (.error f, s, start.2 ++ made)

section
variable {transport : Transport (StateM σ)} {planned : List Request}
variable {expected : Option α} {start : Recorded σ}

theorem Follows.pure (a : α) (start : Recorded σ) :
    Follows transport [] (some a) start (.ok a, start) := by
  have hdone : Follows transport [] (some a) start (.ok a, start.1, start.2 ++ []) :=
    .done rfl (fun x hx => absurd hx List.not_mem_nil) rfl fun x hx => absurd hx List.not_mem_nil
  rwa [List.append_nil] at hdone

/-- A run that makes one request follows the plan to make it, when it fails without an answer of
success and reads such an answer as what is expected. -/
theorem Follows.ofRequest {next : Option Response → StateM (Recorded σ) (Except Failure α)}
    (request : Request)
    (hfailed : ∀ answer, succeeds answer = false → ∃ f, ∀ s, next answer s = (.error f, s))
    (hread : ∀ response, (transport request start.1).1 = some response →
      isSuccess response.status = true →
        (∃ a, expected = some a ∧ ∀ s, next (some response) s = (.ok a, s)) ∨
          (expected = none ∧ ∃ f, ∀ s, next (some response) s = (.error f, s))) :
    Follows transport [request] expected start ((recording transport request >>= next) start) := by
  have hasked : recording transport request start = ((transport request start.1).1,
      (transport request start.1).2, start.2 ++ [⟨request, (transport request start.1).1⟩]) := rfl
  rw [bind_apply, hasked]
  have hgenuine : Genuine transport [⟨request, (transport request start.1).1⟩] :=
    fun x hx => ⟨start.1, by rw [List.mem_singleton.1 hx]⟩
  cases hanswer : succeeds (transport request start.1).1 with
  | false =>
    obtain ⟨f, hnext⟩ := hfailed _ hanswer
    rw [hnext]
    exact .failed (.inr ⟨_, List.mem_singleton_self _, hanswer⟩) (List.prefix_refl _) hgenuine
  | true =>
    have hsucceeded : ∀ x ∈ [(⟨request, (transport request start.1).1⟩ : Exchange)],
        x.succeeded = true := fun x hx => List.mem_singleton.1 hx ▸ hanswer
    obtain ⟨response, hresponse⟩ : ∃ response, (transport request start.1).1 = some response := by
      cases hnone : (transport request start.1).1 with
      | none =>
        rw [hnone] at hanswer
        cases hanswer
      | some response => exact ⟨response, rfl⟩
    rw [hresponse] at hanswer
    rcases hread response hresponse hanswer with ⟨a, hsome, hnext⟩ | ⟨hnone, f, hnext⟩
    · rw [← hresponse] at hnext
      rw [hnext]
      exact .done hsome hsucceeded rfl hgenuine
    · rw [← hresponse] at hnext
      rw [hnext]
      exact .failed (.inl hnone) (List.prefix_refl _) hgenuine

theorem Genuine.append {made more : List Exchange} (h : Genuine transport made)
    (hmore : Genuine transport more) : Genuine transport (made ++ more) := fun x hx =>
  (List.mem_append.1 hx).elim (h x) (hmore x)

/-- A run that follows a plan and goes on along another one follows both, one after the other. -/
theorem Follows.bind {run : StateM (Recorded σ) (Except Failure α)} (others : List Request)
    (then? : α → Option β) (next : Except Failure α → StateM (Recorded σ) (Except Failure β))
    (h : Follows transport planned expected start (run start))
    (hfailed : ∀ f s, next (.error f) s = (.error f, s))
    (hnext : ∀ a s, expected = some a →
      Follows transport others (then? a) s (next (.ok a) s)) :
    Follows transport (planned ++ others) (expected.bind then?) start ((run >>= next) start) := by
  rw [bind_apply]
  generalize run start = ran at h
  cases h with
  | @failed f s made hbad hmade hgenuine =>
    rw [hfailed]
    refine .failed (hbad.imp_left fun hnone => ?_) (hmade.trans (List.prefix_append _ _)) hgenuine
    rw [hnone, Option.bind_none]
  | @done a s made hsome hmade hrequests hgenuine =>
    have hrest := hnext a (s, start.2 ++ made) hsome
    simp only at hrest ⊢
    generalize next (.ok a) (s, start.2 ++ made) = ran' at hrest
    cases hrest with
    | @done b s' more hsome' hmore hrequests' hgenuine' =>
      rw [List.append_assoc]
      refine .done (by rw [hsome, Option.bind_some, hsome']) ?_ ?_ (hgenuine.append hgenuine')
      · exact fun x hx => (List.mem_append.1 hx).elim (hmade x) (hmore x)
      · rw [List.map_append, hrequests, hrequests']
    | @failed f s' more hbad hmore hgenuine' =>
      rw [List.append_assoc]
      refine .failed ?_ ?_ (hgenuine.append hgenuine')
      · rw [hsome, Option.bind_some]
        exact hbad.imp_right fun ⟨x, hx, hfails⟩ => ⟨x, List.mem_append_right _ hx, hfails⟩
      · rw [List.map_append, hrequests]
        exact (List.prefix_append_right_inj planned).2 hmore

theorem Follows.map {run : StateM (Recorded σ) (Except Failure α)} (f : α → β)
    (next : Except Failure α → StateM (Recorded σ) (Except Failure β))
    (h : Follows transport planned expected start (run start))
    (hfailed : ∀ failure s, next (.error failure) s = (.error failure, s))
    (hnext : ∀ a s, next (.ok a) s = (.ok (f a), s)) :
    Follows transport planned (expected.map f) start ((run >>= next) start) := by
  have hboth := Follows.bind [] (fun a => some (f a)) next h hfailed fun a s _ => by
    rw [hnext]
    exact .pure (f a) s
  rw [List.append_nil] at hboth
  rw [Option.map_eq_bind]
  exact hboth

end

/-! ## A server -/

/-- The identifiers of some listed entries, if each has one. -/
def identifiers (stories : List Json) : Option (List String) :=
  stories.mapM fun j => Entry.id? ⟨j⟩

theorem identifiers_append (front back : List Json) :
    identifiers (front ++ back) =
      (identifiers front).bind fun ids => (identifiers back).map (ids ++ ·) := by
  simp only [identifiers, List.mapM_append]
  cases front.mapM fun j => Entry.id? ⟨j⟩ with
  | none => rfl
  | some ids => cases back.mapM fun j => Entry.id? ⟨j⟩ <;> rfl

theorem identifiers_cons (j : Json) (rest : List Json) :
    identifiers (j :: rest) =
      (Entry.id? ⟨j⟩).bind fun id => (identifiers rest).map (id :: ·) := by
  simp only [identifiers, List.mapM_cons]
  cases Entry.id? ⟨j⟩ with
  | none => rfl
  | some id => cases rest.mapM fun j => Entry.id? ⟨j⟩ <;> rfl

theorem identifiers_eq_some {stories : List Json} {ids : List String} :
    identifiers stories = some ids ↔ stories.map (fun j => Entry.id? ⟨j⟩) = ids.map some := by
  induction stories generalizing ids with
  | nil => cases ids <;> simp [identifiers]
  | cons j rest ih =>
    rw [identifiers_cons, Option.bind_eq_some_iff]
    constructor
    · rintro ⟨id, hid, hmap⟩
      obtain ⟨others, hothers, rfl⟩ := Option.map_eq_some_iff.1 hmap
      rw [List.map_cons, List.map_cons, hid, ih.1 hothers]
    · intro h
      cases ids with
      | nil => cases h
      | cons id others =>
        obtain ⟨hid, hothers⟩ := List.cons.inj h
        exact ⟨id, hid, by rw [ih.2 hothers, Option.map_some]⟩

theorem identifiers_eq_none {stories : List Json} :
    identifiers stories = none ↔ ∃ j ∈ stories, Entry.id? ⟨j⟩ = none := by
  induction stories with
  | nil => simp [identifiers]
  | cons j rest ih =>
    rw [identifiers_cons]
    cases hid : Entry.id? ⟨j⟩ with
    | none => simp [hid]
    | some id => simp [hid, ih]

theorem length_of_identifiers {stories : List Json} {ids : List String}
    (h : identifiers stories = some ids) : ids.length = stories.length := by
  simpa using (congrArg List.length (identifiers_eq_some.1 h)).symm

theorem filterMap_of_identifiers {stories : List Json} {ids : List String}
    (h : identifiers stories = some ids) : stories.filterMap (fun j => Entry.id? ⟨j⟩) = ids := by
  have hmap := congrArg (List.filterMap id) (identifiers_eq_some.1 h)
  simpa [List.filterMap_map, Function.comp_def] using hmap

/-- A server has some stories: whenever it answers with success, it answers the request for a page
of the listing with that part of the stories, and the request for a listed story with the whole
story. -/
structure Client.Serves (client : Client (StateM σ)) (component : String) (stories : List Json)
    (whole : String → Entry) : Prop where
  page : ∀ s k response,
    (client.transport (client.listingRequest component (k + 1)) s).1 = some response →
      isSuccess response.status = true →
        response.listing? = some ((stories.drop (pageSize * k)).take pageSize)
  story : ∀ s j id response, j ∈ stories → Entry.id? ⟨j⟩ = some id →
    (client.transport (client.storyRequest id) s).1 = some response →
      isSuccess response.status = true → response.story? = some (whole id)

/-- Every listed entry must have an identifier. -/
theorem idsOf_eq (stories : List Json) :
    (∃ ids, identifiers stories = some ids ∧ Client.idsOf stories = .ok ids) ∨
      (identifiers stories = none ∧ ∃ f, Client.idsOf stories = .error f) := by
  induction stories with
  | nil => exact .inl ⟨[], rfl, rfl⟩
  | cons j rest ih =>
    rw [identifiers, Client.idsOf, List.mapM_cons, List.mapM_cons]
    cases hid : Entry.id? ⟨j⟩ with
    | none => exact .inr ⟨rfl, _, rfl⟩
    | some id =>
      rcases ih with ⟨ids, hids, hok⟩ | ⟨hnone, f, herror⟩
      · rw [identifiers] at hids
        rw [Client.idsOf] at hok
        rw [hids, hok]
        exact .inl ⟨id :: ids, rfl, rfl⟩
      · rw [identifiers] at hnone
        rw [Client.idsOf] at herror
        rw [hnone, herror]
        exact .inr ⟨rfl, f, rfl⟩

namespace Client

variable {client : Client (StateM σ)} {component : String} {listed : List Json}
variable {whole : String → Entry}

/-- A page of the listing is one request. -/
theorem follows_pageIds (hserves : client.Serves component listed whole) (k : Nat)
    (start : Recorded σ) :
    Follows client.transport [client.listingRequest component (k + 1)]
      (identifiers ((listed.drop (pageSize * k)).take pageSize)) start
      (client.recorded.pageIds component (k + 1) start) := by
  refine Follows.ofRequest _ (fun answer hanswer => ?_) fun response hresponse hstatus => ?_
  · cases answer with
    | none => exact ⟨_, fun s => rfl⟩
    | some response =>
      have hstatus : isSuccess response.status = false := hanswer
      simp only [hstatus, Bool.not_false, if_true]
      exact ⟨_, fun s => rfl⟩
  · simp only [hstatus, Bool.not_true, Bool.false_eq_true, if_false,
      hserves.page start.1 k response hresponse hstatus]
    rcases idsOf_eq ((listed.drop (pageSize * k)).take pageSize) with
      ⟨ids, hids, hok⟩ | ⟨hnone, f, herror⟩
    · exact .inl ⟨ids, hids, fun s => by rw [hok]; rfl⟩
    · exact .inr ⟨hnone, f, fun s => by rw [herror]; rfl⟩

/-- A story is one request. -/
theorem follows_story (hserves : client.Serves component listed whole) {j : Json} {id : String}
    (hj : j ∈ listed) (hid : Entry.id? ⟨j⟩ = some id) (start : Recorded σ) :
    Follows client.transport [client.storyRequest id] (some (whole id)) start
      (client.recorded.story id start) := by
  refine Follows.ofRequest _ (fun answer hanswer => ?_) fun response hresponse hstatus => ?_
  · cases answer with
    | none => exact ⟨_, fun s => rfl⟩
    | some response =>
      have hstatus : isSuccess response.status = false := hanswer
      simp only [hstatus, Bool.not_false, if_true]
      exact ⟨_, fun s => rfl⟩
  · simp only [hstatus, Bool.not_true, Bool.false_eq_true, if_false,
      hserves.story start.1 j id response hj hid hresponse hstatus]
    exact .inl ⟨whole id, rfl, fun s => rfl⟩

/-- The stories are asked for one by one. -/
theorem follows_stories (hserves : client.Serves component listed whole) {ids : List String}
    (hids : ∀ id ∈ ids, ∃ j ∈ listed, Entry.id? ⟨j⟩ = some id) (start : Recorded σ) :
    Follows client.transport (ids.map client.storyRequest) (some (ids.map whole)) start
      (client.recorded.stories ids start) := by
  induction ids generalizing start with
  | nil => exact .pure [] start
  | cons id rest ih =>
    obtain ⟨j, hj, hid⟩ := hids id List.mem_cons_self
    have hrest := ih fun id hid => hids id (List.mem_cons_of_mem _ hid)
    rw [stories]
    refine Follows.bind (rest.map client.storyRequest)
      (fun entry => some (entry :: rest.map whole)) _ (follows_story hserves hj hid start)
      (fun f s => rfl) fun entry s _ => ?_
    exact Follows.map (entry :: ·) _ (hrest s) (fun f s => rfl) fun entries s => rfl

/-- The requests for the pages of a listing that has some entries left, from a page on. -/
def pageRequests (client : Client (StateM σ)) (component : String) (k left : Nat) : List Request :=
  (List.range (left / pageSize + 1)).map fun i => client.listingRequest component (k + i + 1)

theorem pageRequests_of_lt {k left : Nat} (h : left < pageSize) :
    client.pageRequests component k left = [client.listingRequest component (k + 1)] := by
  rw [pageRequests, Nat.div_eq_of_lt h]
  rfl

theorem pageRequests_of_le {k left : Nat} (h : pageSize ≤ left) :
    client.pageRequests component k left = [client.listingRequest component (k + 1)] ++
      client.pageRequests component (k + 1) (left - pageSize) := by
  rw [pageRequests, pageRequests, Nat.div_eq_sub_div (by decide) h, List.range_succ_eq_map,
    List.map_cons, List.map_map, Nat.add_zero, List.singleton_append]
  refine congrArg _ (List.map_congr_left fun i _ => ?_)
  rw [Function.comp_apply, Nat.succ_eq_add_one, Nat.add_right_comm k 1 i, Nat.add_assoc k i 1]

/-- The pages of a listing are asked for until one is not full. -/
theorem follows_idsFrom (hserves : client.Serves component listed whole) {limit k : Nat}
    (hlimit : (listed.drop (pageSize * k)).length / pageSize < limit) (start : Recorded σ) :
    Follows client.transport (client.pageRequests component k (listed.drop (pageSize * k)).length)
      (identifiers (listed.drop (pageSize * k))) start
      (client.recorded.idsFrom component limit (k + 1) start) := by
  induction limit generalizing k start with
  | zero => exact absurd hlimit (Nat.not_lt_zero _)
  | succ limit ih =>
    have hpage := follows_pageIds hserves k start
    rw [idsFrom]
    rcases Nat.lt_or_ge (listed.drop (pageSize * k)).length pageSize with hlast | hfull
    · -- the page holds all that is left
      rw [List.take_of_length_le (Nat.le_of_lt hlast)] at hpage
      rw [pageRequests_of_lt hlast, ← List.append_nil [client.listingRequest component (k + 1)],
        ← Option.bind_fun_some (identifiers (listed.drop (pageSize * k)))]
      refine Follows.bind [] some _ hpage (fun f s => rfl) fun ids s hids => ?_
      simp only
      rw [if_pos (length_of_identifiers hids ▸ hlast)]
      exact .pure ids s
    · -- the page is full, and the rest of the listing begins on the next one
      have hdrop : listed.drop (pageSize * (k + 1)) =
          (listed.drop (pageSize * k)).drop pageSize := by
        rw [List.drop_drop, Nat.mul_succ]
      have hlength : (listed.drop (pageSize * (k + 1))).length =
          (listed.drop (pageSize * k)).length - pageSize := by
        rw [hdrop, List.length_drop]
      have hexpected : identifiers (listed.drop (pageSize * k)) =
          (identifiers ((listed.drop (pageSize * k)).take pageSize)).bind fun ids =>
            (identifiers (listed.drop (pageSize * (k + 1)))).map (ids ++ ·) := by
        rw [← identifiers_append, hdrop, List.take_append_drop]
      have hleft : (listed.drop (pageSize * (k + 1))).length / pageSize < limit := by
        rw [Nat.div_eq_sub_div (by decide) hfull, ← hlength] at hlimit
        exact Nat.lt_of_succ_lt_succ hlimit
      rw [pageRequests_of_le hfull, ← hlength, hexpected]
      refine Follows.bind _ _ _ hpage (fun f s => rfl) fun ids s hids => ?_
      have hids : ids.length = pageSize := by
        rw [length_of_identifiers hids, List.length_take, Nat.min_eq_left hfull]
      simp only
      rw [if_neg (hids ▸ Nat.lt_irrefl _)]
      exact Follows.map (ids ++ ·) _ (ih hleft s) (fun f s => rfl) fun more s => rfl

/-- What is asked for the stories of a component: the pages of their listing, and then each story
that has an identifier. -/
def requestsFor (client : Client (StateM σ)) (component : String) (listed : List Json) :
    List Request :=
  client.pageRequests component 0 listed.length ++
    (listed.filterMap fun j => Entry.id? ⟨j⟩).map client.storyRequest

theorem follows_entriesWith (hserves : client.Serves component listed whole)
    (hlimit : listed.length / pageSize < client.pageLimit) (start : Recorded σ) :
    Follows client.transport (client.requestsFor component listed)
      ((identifiers listed).map fun ids => ids.map whole) start
      (client.recorded.entriesWith component start) := by
  have hpages := @follows_idsFrom _ _ _ _ _ hserves client.pageLimit 0 hlimit start
  rw [Nat.mul_zero, List.drop_zero] at hpages
  rw [entriesWith, requestsFor, Option.map_eq_bind]
  refine Follows.bind _ _ _ hpages (fun f s => rfl) fun ids s hids => ?_
  rw [filterMap_of_identifiers hids]
  refine follows_stories hserves (fun id hid => ?_) s
  have hmem : some id ∈ listed.map fun j => Entry.id? ⟨j⟩ := by
    rw [identifiers_eq_some.1 hids]
    exact List.mem_map_of_mem hid
  exact List.mem_map.1 hmem

/-- **Every listed story is fetched once, in order.** A run of a client of such a server is the one
of the client without a record. When each listed story has an identifier and each request was
answered with success, it gives the whole stories in the order of the listing, and what it asked
for is one page more than are full and then each story. A story without an identifier or a request
without success makes it fail, and no run asks for anything else, so that all requests succeed
where the server answers these with success.

The page number is a word of 64 bits, which is the limit of pages of a client for a space
(`Client.ofCredentials`); a listing with more pages fits in no memory. -/
theorem entriesWith_listed (hserves : client.Serves component listed whole)
    (hlimit : listed.length / pageSize < client.pageLimit) (s : σ) :
    let run := client.recorded.entriesWith component (s, [])
    let record := run.2.2
    (client.entriesWith component s).1 = run.1 ∧
    ((∀ j ∈ listed, Entry.id? ⟨j⟩ ≠ none) → (∀ x ∈ record, x.succeeded = true) →
      ∃ ids : List String, listed.map (fun j => Entry.id? ⟨j⟩) = ids.map some ∧
        run.1 = .ok (ids.map whole) ∧
        record.map (·.request) =
          (List.range (listed.length / pageSize + 1)).map
            (fun k => client.listingRequest component (k + 1)) ++ ids.map client.storyRequest) ∧
    ((∃ j ∈ listed, Entry.id? ⟨j⟩ = none) ∨ (∃ x ∈ record, x.succeeded = false) →
      ∃ f, run.1 = .error f) ∧
    record.map (·.request) <+: client.requestsFor component listed ∧
    ((∀ request ∈ client.requestsFor component listed, ∀ s,
      succeeds (client.transport request s).1 = true) → ∀ x ∈ record, x.succeeded = true) := by
  have hsame := congrArg Prod.fst (client.forgets_entriesWith component s [])
  have hfollows := follows_entriesWith hserves hlimit (s, [])
  intro run record
  have hrun : run = client.recorded.entriesWith component (s, []) := rfl
  have hrecord : record = run.2.2 := rfl
  rw [← hrun] at hfollows
  refine ⟨hsame.symm, ?_⟩
  clear_value record run
  subst hrecord
  clear hsame hrun
  cases hfollows with
  | @done entries s' made hsome hmade hrequests hgenuine =>
    obtain ⟨ids, hids, rfl⟩ := Option.map_eq_some_iff.1 hsome
    rw [List.nil_append]
    refine ⟨fun _ _ => ⟨ids, identifiers_eq_some.1 hids, rfl, ?_⟩, ?_,
      hrequests ▸ List.prefix_refl _, fun _ => hmade⟩
    · rw [hrequests, requestsFor, filterMap_of_identifiers hids, pageRequests]
      simp only [Nat.zero_add]
    · rintro (⟨j, hj, hid⟩ | ⟨x, hx, hfails⟩)
      · rw [identifiers_eq_none.2 ⟨j, hj, hid⟩] at hids
        cases hids
      · rw [hmade x hx] at hfails
        cases hfails
  | @failed f s' made hbad hmade hgenuine =>
    rw [List.nil_append]
    refine ⟨fun hall hsucceeded => ?_, fun _ => ⟨f, rfl⟩, hmade, fun hserver x hx => ?_⟩
    · rcases hbad with hnone | ⟨x, hx, hfails⟩
      · obtain ⟨j, hj, hid⟩ := identifiers_eq_none.1 (Option.map_eq_none_iff.1 hnone)
        exact absurd hid (hall j hj)
      · rw [hsucceeded x hx] at hfails
        cases hfails
    · obtain ⟨s, hanswer⟩ := hgenuine x hx
      rw [Exchange.succeeded, ← hanswer]
      exact hserver x.request (hmade.subset (List.mem_map_of_mem hx)) s

end Client

/-! ## A server that prints what it has -/

/-- The text of a page of a listing. -/
def listingText (stories : List Json) : String := (Json.obj [("stories", .arr stories)]).pretty

/-- A page of legible stories is read as what it was printed from. -/
theorem parse_listingText {stories : List Json} (hreadable : ∀ j ∈ stories, j.Readable 125) :
    listingRecord.parse [] (listingText stories) = .ok stories := by
  have hlimit : Json.depthLimit = 126 + 1 := rfl
  rw [TextRecord.parse, listingText, Json.pretty, Json.toList_obj, hlimit, TextRecord.read_brace]
  obtain ⟨fuel, hfuel⟩ : ∃ f,
      (Json.membersText 0 [("stories", .arr stories)] ++ ['\x7d']).length + 1 = f + 2 := by
    refine ⟨_, (Nat.sub_add_cancel ?_).symm⟩
    simp [Json.membersText, Json.newline]
  rw [hfuel]
  simp only [Json.membersText, Json.membersTail_nil, List.append_assoc, List.nil_append]
  rw [TextRecord.readMembers_first (f := ⟨"stories", false, _⟩) _ _ _ _ _
    (by simp [listingRecord]; rfl)]
  have hlegible : ∀ j ∈ stories, j.Legible := fun j hj => (hreadable j hj).1
  have hdepth : ∀ j ∈ stories, j.depth ≤ 125 := fun j hj => (hreadable j hj).2
  simp only [TextField.values_prettyAt 1 125 _ hlegible, Json.nested, Json.depthItems_le,
    if_pos hdepth, bind, Except.bind, TextRecord.readMembers_end]
  rfl

/-- The response with a text. -/
def Response.ofText (text : String) : Response := ⟨200, text.toUTF8⟩

theorem listing?_ofText {stories : List Json} (h : ∀ j ∈ stories, j.Readable 125) :
    (Response.ofText (listingText stories)).listing? = some stories := by
  rw [Response.listing?, Response.ofText, parseBytes_toUTF8, parse_listingText h]
  rfl

theorem story?_ofText {e : Entry} (h : e.doc.Readable 126) :
    (Response.ofText (envelope e.doc)).story? = some e := by
  rw [Response.story?, Response.ofText, parseBytes_toUTF8, parse_envelope h.1 h.2]
  rfl

namespace Client

/-- What a server of some stories answers: the page of the listing with a number, a whole story by
its identifier, or that there is nothing. -/
def printed (client : Client (StateM σ)) (listed : List Json) (whole : String → Entry)
    (request : Request) : Response :=
  match request.query.lookup "page" with
  | some page =>
    .ofText (listingText ((listed.drop (pageSize * (page.toNat?.getD 1 - 1))).take pageSize))
  | none =>
    match (listed.filterMap fun j => Entry.id? ⟨j⟩).find?
        fun id => client.storyRequest id = request with
    | some id => .ofText (envelope (whole id).doc)
    | none => ⟨404, .empty⟩

/-- The client of a server that prints what it has. -/
def ofPrinted (client : Client (StateM σ)) (listed : List Json) (whole : String → Entry) :
    Client (StateM σ) :=
  { client with transport := fun request s => (some (client.printed listed whole request), s) }

variable (client : Client (StateM σ)) {component : String} {listed : List Json}
variable {whole : String → Entry}

theorem storyRequest_inj {id id' : String} :
    client.storyRequest id = client.storyRequest id' ↔ id = id' := by
  simp [storyRequest, String.append_right_inj]

theorem printed_page (k : Nat) :
    client.printed listed whole (client.listingRequest component (k + 1)) =
      .ofText (listingText ((listed.drop (pageSize * k)).take pageSize)) := by
  have hpage : (client.listingRequest component (k + 1)).query.lookup "page" =
      some (k + 1).repr := rfl
  rw [printed, hpage]
  simp only [Nat.toNat?_repr, Option.getD_some, Nat.add_sub_cancel]

theorem printed_story {id : String} (hid : id ∈ listed.filterMap fun j => Entry.id? ⟨j⟩) :
    client.printed listed whole (client.storyRequest id) = .ofText (envelope (whole id).doc) := by
  have hfind : (listed.filterMap fun j => Entry.id? ⟨j⟩).find?
      (fun id' => client.storyRequest id' = client.storyRequest id) = some id := by
    obtain ⟨id', hid'⟩ : ∃ id', (listed.filterMap fun j => Entry.id? ⟨j⟩).find?
        (fun id' => client.storyRequest id' = client.storyRequest id) = some id' :=
      Option.isSome_iff_exists.1 (List.find?_isSome.2 ⟨id, hid, by simp⟩)
    have heq : id' = id := client.storyRequest_inj.1 (by simpa using List.find?_some hid')
    rw [hid', heq]
  have hpage : (client.storyRequest id).query.lookup "page" = none := rfl
  rw [printed, hpage]
  simp only [hfind]

/-- A server that prints legible stories serves them. -/
theorem serves_printed (hlisted : ∀ j ∈ listed, j.Readable 125)
    (hwhole : ∀ id, (whole id).doc.Readable 126) :
    (client.ofPrinted listed whole).Serves component listed whole where
  page s k response hanswer _ := by
    obtain rfl := Option.some.inj hanswer
    exact (congrArg _ (client.printed_page k)).trans (listing?_ofText fun j hj =>
      hlisted j (List.mem_of_mem_drop (List.mem_of_mem_take hj)))
  story s j id response hj hid hanswer _ := by
    obtain rfl := Option.some.inj hanswer
    have hmem : id ∈ listed.filterMap fun j => Entry.id? ⟨j⟩ := List.mem_filterMap.2 ⟨j, hj, hid⟩
    exact (congrArg _ (client.printed_story hmem)).trans (story?_ofText (hwhole id))

/-- What a run may ask of such a server is answered with success. -/
theorem succeeds_printed {request : Request}
    (h : request ∈ (client.ofPrinted listed whole).requestsFor component listed) (s : σ) :
    succeeds ((client.ofPrinted listed whole).transport request s).1 = true := by
  change isSuccess (client.printed listed whole request).status = true
  rcases List.mem_append.1 h with hpage | hstory
  · obtain ⟨k, -, rfl⟩ := List.mem_map.1 hpage
    rw [Nat.zero_add]
    exact congrArg (fun r => isSuccess r.status) (client.printed_page k)
  · obtain ⟨id, hid, rfl⟩ := List.mem_map.1 hstory
    exact congrArg (fun r => isSuccess r.status) (client.printed_story hid)

end Client

/-! ## A page that is full -/

namespace Hundred

/-- One hundred stories, with their identifiers only. -/
def listed : List Json := (List.range 100).map fun n => .obj [("id", .str n.repr)]

/-- A story with its content. -/
def whole (id : String) : Entry := ⟨.obj [("id", .str id), ("content", .obj [])]⟩

/-- The client of a server that prints these stories. -/
def client : Client (StateM Unit) :=
  Client.ofPrinted
    ⟨"https://mapi.storyblok.com", "1", "token", fun _ s => (none, s), Client.maxPages⟩
    listed whole

theorem map_id?_listed :
    listed.map (fun j => Entry.id? ⟨j⟩) = ((List.range 100).map Nat.repr).map some := by
  rw [listed, List.map_map, List.map_map]
  decide +kernel

theorem serves : client.Serves "page" listed whole := by
  refine Client.serves_printed _ (fun j hj => ?_) fun id => ?_
  · obtain ⟨n, -, rfl⟩ := List.mem_map.1 hj
    exact ⟨by simp [Dict.Distinct, Dict.keys], by simp [Json.depth, Json.depthMembers]⟩
  · exact ⟨by simp [whole, Dict.Distinct, Dict.keys],
      by simp [whole, Json.depth, Json.depthMembers]⟩

/-- The page of one hundred stories is full, so that the second page is asked for, which is empty;
each of the stories is then fetched. -/
theorem entriesWith_hundred :
    (client.entriesWith "page" ()).1 = .ok ((List.range 100).map fun n => whole n.repr) ∧
      ((client.recorded.entriesWith "page" ((), [])).2.2.map (·.request)) =
        [client.listingRequest "page" 1, client.listingRequest "page" 2] ++
          (List.range 100).map fun n => client.storyRequest n.repr := by
  have hlimit : listed.length / pageSize < client.pageLimit := by decide +kernel
  have hidentified : ∀ j ∈ listed, Entry.id? ⟨j⟩ ≠ none := by
    intro j hj hnone
    have hmem := List.mem_map_of_mem (f := fun j => Entry.id? ⟨j⟩) hj
    rw [map_id?_listed, hnone] at hmem
    simp at hmem
  obtain ⟨hsame, hall, -, -, hserver⟩ := Client.entriesWith_listed serves hlimit ()
  obtain ⟨ids, hids, hrun, hrequests⟩ := hall hidentified
    (hserver fun request hrequest s => Client.succeeds_printed _ hrequest s)
  obtain rfl : (List.range 100).map Nat.repr = ids :=
    List.map_injective_iff.2 (fun _ _ => Option.some.inj) (map_id?_listed.symm.trans hids)
  refine ⟨hsame.trans (hrun.trans ?_), hrequests.trans ?_⟩
  · rw [List.map_map]
    rfl
  · have hpages : listed.length / pageSize + 1 = 2 := by decide +kernel
    rw [hpages, List.map_map]
    rfl

end Hundred

end Blokwork.Http
