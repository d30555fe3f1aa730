import Mathlib
import OpenObs.Notifications.Consumer

/-!
# What identifies an alert

`computeAlertFingerprint` of `common/events/fingerprint.ts` and the group key of the consumer. Both
write texts one behind another with a separator that the texts may hold themselves.
-/

namespace OpenObs.Notifications

open OpenObs.Foundation

structure AlertIdentity where
  ruleId : String
  labels : Labels
  keys_nodup : (labels.map (·.1)).Nodup

def fingerprintText (ruleId : String) (labels : Labels) : String :=
  ruleId ++ "|" ++ Text.join
    ((Text.sort (labels.map (·.1))).map fun k => k ++ "=" ++ labels.get k) ','

def computeAlertFingerprint (sha256 : String → String) (ruleId : String) (labels : Labels) :
    String :=
  sha256 (fingerprintText ruleId labels)

namespace AlertIdentity

def Same (a b : AlertIdentity) : Prop :=
  a.ruleId = b.ruleId ∧ ∀ name, a.labels.lookup name = b.labels.lookup name

def OwnFingerprint (sha256 : String → String) (a : AlertIdentity) : Prop :=
  ∀ b : AlertIdentity, computeAlertFingerprint sha256 a.ruleId a.labels =
    computeAlertFingerprint sha256 b.ruleId b.labels → a.Same b

def Fired (sha256 : String → String) (a : AlertIdentity) (payload : AlertFiredEventPayload) :
    Prop :=
  payload.ruleId = a.ruleId ∧ payload.labels = a.labels ∧
    payload.fingerprint = computeAlertFingerprint sha256 a.ruleId a.labels

/-- No event of another alert is recorded under a key that one of this alert is recorded
under, whatever the routes. -/
def OwnDispatchKey (sha256 : String → String) (a : AlertIdentity) : Prop :=
  ∀ (b : AlertIdentity) (payload payload' : AlertFiredEventPayload) (route route' : MatchedRoute),
    Fired sha256 a payload → Fired sha256 b payload' →
    NotificationConsumer.routeKey payload route = NotificationConsumer.routeKey payload' route' →
    a.Same b

/-- Without labels, no `=` behind a bar of the rule's id. -/
def Plain (ruleId : String) : Labels → Prop
  | [] => '=' ∉ ruleId.toList.dropWhile (· ≠ '|')
  | [(name, value)] =>
    '|' ∉ ruleId.toList ∧ '|' ∉ name.toList ∧ '=' ∉ name.toList ∧ '=' ∉ value.toList ∧
      value.toList.getLast? ≠ some '|'
  | _ => False

end AlertIdentity

def Separates (groupBy : List String) : Prop :=
  ∀ a b : AlertIdentity, computeGroupKey groupBy a.labels = computeGroupKey groupBy b.labels →
    ∀ name ∈ groupBy, a.labels.get name = b.labels.get name

/-! ## The text and its readings -/

section Readings

def written (entries : List (List Char × List Char)) : List Char :=
  [','].intercalate (entries.map fun e => e.1 ++ '=' :: e.2)

def entries (labels : Labels) : List (List Char × List Char) :=
  (Text.sort (labels.map (·.1))).map fun k => (k.toList, (labels.get k).toList)

theorem toList_fingerprintText (ruleId : String) (labels : Labels) :
    (fingerprintText ruleId labels).toList =
      ruleId.toList ++ '|' :: written (entries labels) := by
  simp [fingerprintText, Text.join, written, entries, Function.comp_def]

@[simp] theorem length_entries (labels : Labels) : (entries labels).length = labels.length := by
  simp [entries, Text.sort]

@[simp] theorem entries_nil : entries [] = [] := List.length_eq_zero_iff.mp (length_entries [])

@[simp] theorem entries_singleton (name value : String) :
    entries [(name, value)] = [(name.toList, value.toList)] := by
  simp [entries, Text.sort, Labels.get, List.lookup]

@[simp] theorem written_nil : written [] = [] := rfl

@[simp] theorem written_singleton (name value : List Char) :
    written [(name, value)] = name ++ '=' :: value := by
  simp [written]

theorem length_le_count_written (es : List (List Char × List Char)) :
    es.length ≤ (written es).count '=' := by
  induction es with
  | nil => exact Nat.zero_le _
  | cons e es ih =>
    have hown : 1 ≤ (e.1 ++ '=' :: e.2).count '=' := by simp; omega
    cases es with
    | nil => simpa [written] using hown
    | cons e' es =>
      have hcons : written (e :: e' :: es) =
          (e.1 ++ '=' :: e.2) ++ [','] ++ written (e' :: es) := by
        simp [written, List.intercalate_cons_cons]
      rw [hcons, List.count_append, List.count_append, List.length_cons]
      omega

theorem exists_label {text : List Char} (h : '=' ∈ text) :
    ∃ name value : String, '=' ∉ name.toList ∧ text = name.toList ++ '=' :: value.toList := by
  obtain ⟨name, value, htext, hname⟩ := List.eq_append_cons_of_mem h
  exact ⟨String.ofList name, String.ofList value, by simpa using hname, by simpa using htext⟩

def oneLabel (ruleId name value : String) : AlertIdentity :=
  ⟨ruleId, [(name, value)], List.nodup_singleton name⟩

theorem toList_oneLabel (ruleId name value : String) :
    (fingerprintText (oneLabel ruleId name value).ruleId
      (oneLabel ruleId name value).labels).toList =
      ruleId.toList ++ '|' :: (name.toList ++ '=' :: value.toList) := by
  simp [toList_fingerprintText, oneLabel]

end Readings

/-! ## The order of the labels -/

theorem label_missing_iff {labels : Labels} {name : String} :
    labels.lookup name = none ↔ name ∉ labels.map (·.1) := by
  rw [List.lookup_eq_none_iff, List.mem_map]
  constructor
  · rintro h ⟨e, he, rfl⟩
    simpa using h e he
  · exact fun h e he => bne_iff_ne.mpr fun heq => h ⟨e, he, heq.symm⟩

theorem AlertIdentity.Same.fingerprintText_eq {a b : AlertIdentity} (h : a.Same b) :
    fingerprintText a.ruleId a.labels = fingerprintText b.ruleId b.labels := by
  have hkeys : (a.labels.map (·.1)).Perm (b.labels.map (·.1)) := by
    refine (List.perm_ext_iff_of_nodup a.keys_nodup b.keys_nodup).mpr fun name => ?_
    rw [← not_iff_not, ← label_missing_iff, ← label_missing_iff, h.2]
  have hget : a.labels.get = b.labels.get := funext fun name => by
    rw [Labels.get, Labels.get, h.2]
  rw [fingerprintText, fingerprintText, h.1, Text.sort_congr hkeys, hget]

/-! ## The fingerprint of one alert -/

section Fingerprint

variable {sha256 : String → String} {a b : AlertIdentity} {name value : String}
  {r s r' s' : List Char}

theorem bar_split (h : r ++ '|' :: s = r' ++ '|' :: s') :
    (r = r' ∧ s = s') ∨ (∃ m, r' = r ++ '|' :: m ∧ s = m ++ '|' :: s') ∨
      ∃ m, r = r' ++ '|' :: m ∧ s' = m ++ '|' :: s := by
  rcases List.append_eq_append_iff.mp h with ⟨m, rfl, hm⟩ | ⟨m, rfl, hm⟩
  · cases m with
    | nil => exact Or.inl ⟨by simp, (List.cons.inj hm).2⟩
    | cons c m =>
      obtain ⟨rfl, hs⟩ := List.cons.inj hm
      exact Or.inr (Or.inl ⟨m, rfl, hs⟩)
  · cases m with
    | nil => exact Or.inl ⟨by simp, (List.cons.inj hm).2.symm⟩
    | cons c m =>
      obtain ⟨rfl, hs⟩ := List.cons.inj hm
      exact Or.inr (Or.inr ⟨m, rfl, hs⟩)

theorem mem_dropWhile_iff : '=' ∈ r.dropWhile (· ≠ '|') ↔
    ∃ before after, r = before ++ '|' :: after ∧ '=' ∈ after := by
  induction r with
  | nil => simp
  | cons c r ih =>
    by_cases hc : c = '|'
    · subst hc
      rw [List.dropWhile_cons_of_neg (by simp)]
      constructor
      · intro h
        exact ⟨[], r, rfl, by simpa using h⟩
      · rintro ⟨before, after, hr, h⟩
        rw [hr]
        exact List.mem_append_right _ (List.mem_cons_of_mem _ h)
    · rw [List.dropWhile_cons_of_pos (by simpa using hc), ih]
      constructor
      · rintro ⟨before, after, rfl, h⟩
        exact ⟨c :: before, after, rfl, h⟩
      · rintro ⟨before, after, hr, h⟩
        cases before with
        | nil => exact absurd (List.cons.inj hr).1 hc
        | cons d before => exact ⟨before, after, (List.cons.inj hr).2, h⟩

theorem labels_eq_nil (h : '=' ∉ written (entries b.labels)) : b.labels = [] := by
  have hlength := length_le_count_written (entries b.labels)
  rw [List.count_eq_zero.mpr h, length_entries] at hlength
  exact List.length_eq_zero_iff.mp (Nat.le_zero.mp hlength)

theorem labels_eq_singleton (hname : '=' ∉ name.toList) (hvalue : '=' ∉ value.toList)
    (h : written (entries b.labels) = name.toList ++ '=' :: value.toList) :
    b.labels = [(name, value)] := by
  have hlength := length_le_count_written (entries b.labels)
  rw [h, List.count_append, List.count_cons_self, List.count_eq_zero.mpr hname,
    List.count_eq_zero.mpr hvalue, length_entries] at hlength
  match hlabels : b.labels, hlength with
  | [], _ =>
    rw [hlabels, entries_nil, written_nil] at h
    simp at h
  | [(name', value')], _ =>
    rw [hlabels, entries_singleton, written_singleton] at h
    obtain ⟨hn, -, hv⟩ := (List.append_cons_inj_of_notMem hname hvalue).mp h.symm
    rw [String.toList_inj.mp hn, String.toList_inj.mp hv]

theorem same_of_plain (h : AlertIdentity.Plain a.ruleId a.labels)
    (htext : a.ruleId.toList ++ '|' :: written (entries a.labels) =
      b.ruleId.toList ++ '|' :: written (entries b.labels)) : a.Same b := by
  have hsplit := bar_split htext
  match hlabels : a.labels with
  | [] =>
    rw [hlabels] at h hsplit
    rcases hsplit with ⟨hrule, hrest⟩ | ⟨m, -, hrest⟩ | ⟨m, hrule, hrest⟩
    · have hnone := labels_eq_nil (b := b) (by rw [← hrest]; simp)
      exact ⟨String.toList_inj.mp hrule, fun name => by rw [hlabels, hnone]⟩
    · simp at hrest
    · -- behind a bar of the id there is no label
      have hm : '=' ∉ m := fun hm => h (mem_dropWhile_iff.mpr ⟨_, m, hrule, hm⟩)
      have hnone := labels_eq_nil (b := b) (by rw [hrest]; simpa using hm)
      rw [hnone, entries_nil, written_nil] at hrest
      simp at hrest
  | [(name, value)] =>
    rw [hlabels] at h hsplit
    obtain ⟨hrule, hbar, hname, hvalue, hlast⟩ := h
    rw [entries_singleton, written_singleton] at hsplit
    rcases hsplit with ⟨hids, hrest⟩ | ⟨m, -, hrest⟩ | ⟨m, hids, -⟩
    · have hone := labels_eq_singleton hname hvalue hrest.symm
      exact ⟨String.toList_inj.mp hids, fun other => by rw [hlabels, hone]⟩
    · -- the bar would stand in the value, with nothing behind it
      exfalso
      rcases List.append_eq_append_iff.mp hrest with ⟨c, -, hc⟩ | ⟨c, hc, hbehind⟩
      · cases c with
        | nil => simp at hc
        | cons d c =>
          have hv := (List.cons.inj hc).2
          have hnone := labels_eq_nil (b := b) fun hmem => hvalue (by rw [hv]; simp [hmem])
          rw [hnone, entries_nil, written_nil] at hv
          exact hlast (by rw [hv]; simp)
      · cases c with
        | nil => simp at hbehind
        | cons d c =>
          obtain ⟨rfl, -⟩ := List.cons.inj hbehind
          exact hbar (by rw [hc]; simp)
    · exact absurd (by rw [hids]; simp) hrule
  | _ :: _ :: _ =>
    rw [hlabels] at h
    exact h.elim

theorem OwnFingerprint.reading (h : a.OwnFingerprint sha256)
    (htext : (fingerprintText a.ruleId a.labels).toList =
      (fingerprintText b.ruleId b.labels).toList) : a.Same b :=
  h b (congrArg sha256 (String.toList_inj.mp htext))

theorem OwnFingerprint.one_label (h : a.OwnFingerprint sha256)
    (htext : a.ruleId.toList ++ '|' :: written (entries a.labels) = r ++ '|' :: s)
    (hs : '=' ∈ s) : a.ruleId.toList = r ∧ ∃ name value : String, '=' ∉ name.toList ∧
      ∀ other, a.labels.lookup other = [(name, value)].lookup other := by
  obtain ⟨name, value, hname, rfl⟩ := exists_label hs
  have hsame := OwnFingerprint.reading (b := oneLabel (String.ofList r) name value) h (by
    rw [toList_oneLabel, toList_fingerprintText, htext, String.toList_ofList])
  refine ⟨?_, name, value, hname, hsame.2⟩
  rw [hsame.1]
  exact String.toList_ofList

theorem plain_of_own (h : a.OwnFingerprint sha256) :
    AlertIdentity.Plain a.ruleId a.labels := by
  match hlabels : a.labels with
  | [] =>
    intro hmem
    obtain ⟨before, after, hrule, hafter⟩ := mem_dropWhile_iff.mp hmem
    have hread := OwnFingerprint.one_label (r := before) (s := after ++ ['|']) h
      (by rw [hrule, hlabels]; simp) (by simp [hafter])
    rw [hrule] at hread
    simp at hread
  | [(name, value)] =>
    have htext : written (entries a.labels) = name.toList ++ '=' :: value.toList := by
      rw [hlabels, entries_singleton, written_singleton]
    have hmem : '=' ∈ name.toList ++ '=' :: value.toList := by simp
    have hname : '=' ∉ name.toList := by
      obtain ⟨-, name', value', hname', hlookup⟩ :=
        OwnFingerprint.one_label h (by rw [htext]) hmem
      have hfound := hlookup name'
      rw [hlabels] at hfound
      by_cases heq : name' = name
      · rwa [← heq]
      · simp [heq] at hfound
    refine ⟨fun hbar => ?_, fun hbar => ?_, hname, fun hvalue => ?_, fun hlast => ?_⟩
    · obtain ⟨before, after, hrule⟩ := List.append_of_mem hbar
      have hread := OwnFingerprint.one_label (r := before)
        (s := after ++ '|' :: (name.toList ++ '=' :: value.toList)) h
        (by rw [htext, hrule]; simp) (by simp)
      rw [hrule] at hread
      simp at hread
    · obtain ⟨before, after, hkey⟩ := List.append_of_mem hbar
      have hread := OwnFingerprint.one_label (r := a.ruleId.toList ++ '|' :: before)
        (s := after ++ '=' :: value.toList) h (by rw [htext, hkey]; simp) (by simp)
      simp at hread
    · -- the name could as well reach to a later `=`
      obtain ⟨before, after, hval⟩ := List.append_of_mem hvalue
      have hsame := OwnFingerprint.reading
        (b := oneLabel a.ruleId (name ++ "=" ++ String.ofList before) (String.ofList after)) h
        (by rw [toList_oneLabel, toList_fingerprintText, htext, hval]; simp)
      have hfound := hsame.2 name
      have hne : name ≠ name ++ "=" ++ String.ofList before := fun heq => by
        have hlength := congrArg (fun t : String => t.toList.length) heq
        simp at hlength
      rw [hlabels, oneLabel] at hfound
      simp [hne] at hfound
    · obtain ⟨before, hval⟩ := List.getLast?_eq_some_iff.mp hlast
      have hsame := OwnFingerprint.reading
        (b := ⟨a.ruleId ++ "|" ++ name ++ "=" ++ String.ofList before, [], List.nodup_nil⟩) h
        (by rw [toList_fingerprintText, toList_fingerprintText, htext, hval]; simp)
      have hfound := hsame.2 name
      rw [hlabels] at hfound
      simp at hfound
  | (x, v) :: (y, w) :: rest =>
    have hmem : '=' ∈ written (entries a.labels) := by
      refine List.count_pos_iff.mp (lt_of_lt_of_le ?_ (length_le_count_written _))
      rw [length_entries, hlabels]
      exact Nat.succ_pos _
    obtain ⟨-, name, value, -, hlookup⟩ := OwnFingerprint.one_label h rfl hmem
    have hxy : x ≠ y := by
      have hnodup := a.keys_nodup
      rw [hlabels] at hnodup
      exact fun heq => (List.nodup_cons.mp hnodup).1 (by simp [heq])
    have only : ∀ key, (a.labels.lookup key).isSome → key = name := by
      intro key hkey
      rw [hlookup] at hkey
      by_contra hne
      simp [hne] at hkey
    exact hxy ((only x (by rw [hlabels]; simp)).trans
      (only y (by rw [hlabels]; simp)).symm)

end Fingerprint

/-! ## The group key -/

section GroupKey

variable {groupBy : List String} {labels : Labels} {g : String}

theorem toList_computeGroupKey (groupBy : List String) (labels : Labels) :
    (computeGroupKey groupBy labels).toList =
      ['|'].intercalate (groupBy.map fun name => (labels.shown name).toList) := by
  rw [computeGroupKey]
  split
  · simp_all
  · simp [Text.join, Function.comp_def]

theorem length_intercalate (c : Char) (texts : List (List Char)) :
    ([c].intercalate texts).length = (texts.map List.length).sum + (texts.length - 1) := by
  induction texts with
  | nil => rfl
  | cons t texts ih =>
    cases texts with
    | nil => simp
    | cons t' texts =>
      rw [List.intercalate_cons_cons, List.length_append, List.length_append, ih]
      simp only [List.map_cons, List.sum_cons, List.length_cons, List.length_nil]
      omega

theorem intercalate_bars (ns : List ℕ) :
    ['|'].intercalate (ns.map fun n => List.replicate n '|') =
      List.replicate (ns.sum + (ns.length - 1)) '|' := by
  refine List.eq_replicate_iff.mpr ⟨?_, ?_⟩
  · rw [length_intercalate, List.map_map, List.length_map]
    congr 2
    simp [Function.comp_def]
  · induction ns with
    | nil => exact fun c h => absurd h List.not_mem_nil
    | cons n ns ih =>
      cases ns with
      | nil =>
        intro c h
        exact List.eq_of_mem_replicate (by simpa using h)
      | cons m ns =>
        intro c h
        rw [List.map_cons, List.map_cons, List.intercalate_cons_cons, List.mem_append,
          List.mem_append] at h
        rcases h with (h | h) | h
        · exact List.eq_of_mem_replicate h
        · exact List.mem_singleton.mp h
        · exact ih c h

theorem intercalate_replicate_inj {n : ℕ} (hn : n ≠ 0) {v w : List Char}
    (h : ['|'].intercalate (List.replicate n v) = ['|'].intercalate (List.replicate n w)) :
    v = w := by
  have hlength : v.length = w.length := by
    have htotal := congrArg List.length h
    simp only [length_intercalate, List.map_replicate, List.sum_replicate_nat,
      List.length_replicate, Nat.add_right_cancel_iff] at htotal
    exact Nat.eq_of_mul_eq_mul_left (Nat.pos_of_ne_zero hn) htotal
  obtain ⟨k, rfl⟩ := Nat.exists_eq_succ_of_ne_zero hn
  cases k with
  | zero => simpa using h
  | succ k =>
    rw [List.replicate_succ, List.replicate_succ, List.replicate_succ, List.replicate_succ,
      List.intercalate_cons_cons, List.intercalate_cons_cons, List.append_assoc,
      List.append_assoc] at h
    exact List.append_inj_left h hlength

theorem shown_of_not_inherited (h : Inherited.find g = none) (labels : Labels) :
    labels.shown g = labels.get g := by
  rw [Labels.shown, property, Labels.get]
  cases labels.lookup g <;> simp [h]

theorem separates_of_one (hone : ∀ g ∈ groupBy, ∀ g' ∈ groupBy, g = g')
    (hplain : ∀ g ∈ groupBy, Inherited.find g = none) : Separates groupBy := by
  intro a b h g hg
  have hsame : groupBy = List.replicate groupBy.length g :=
    List.eq_replicate_of_mem fun g' hg' => hone g' hg' g hg
  have htext := congrArg String.toList h
  rw [toList_computeGroupKey, toList_computeGroupKey, hsame, List.map_replicate,
    List.map_replicate] at htext
  have hshown := intercalate_replicate_inj (List.length_pos_of_mem hg).ne' htext
  rw [← shown_of_not_inherited (hplain g hg), ← shown_of_not_inherited (hplain g hg)]
  exact String.toList_inj.mp hshown

theorem not_inherited_of_separates (h : Separates groupBy) (hg : g ∈ groupBy) :
    Inherited.find g = none := by
  by_contra hne
  obtain ⟨i, hi⟩ := Option.ne_none_iff_exists'.mp hne
  have hshown : Labels.shown [(g, i.text)] = Labels.shown [] := by
    funext name
    by_cases heq : name = g
    · simp [Labels.shown, property, heq, hi]
    · simp [Labels.shown, property, heq]
  have hget := h ⟨"", [(g, i.text)], List.nodup_singleton _⟩ ⟨"", [], List.nodup_nil⟩
    (by simp only [computeGroupKey, hshown]) g hg
  exact i.text_ne_empty (by simpa [Labels.get] using hget)

theorem sum_map_count (g : String) (n : ℕ) (names : List String) :
    (names.map fun name => if name = g then n else 0).sum = names.count g * n := by
  induction names with
  | nil => simp
  | cons name names ih =>
    by_cases h : name = g
    · simp [h, ih, Nat.succ_mul, Nat.add_comm]
    · simp [h, ih]

theorem toList_computeGroupKey_bars (hplain : ∀ g ∈ groupBy, Inherited.find g = none)
    (g : String) (n : ℕ) :
    (computeGroupKey groupBy [(g, String.ofList (List.replicate n '|'))]).toList =
      List.replicate (groupBy.count g * n + (groupBy.length - 1)) '|' := by
  have htexts : (groupBy.map fun name =>
      (Labels.shown [(g, String.ofList (List.replicate n '|'))] name).toList) =
      (groupBy.map fun name => if name = g then n else 0).map fun n => List.replicate n '|' := by
    rw [List.map_map]
    refine List.map_congr_left fun name hname => ?_
    rw [shown_of_not_inherited (hplain name hname)]
    by_cases heq : name = g
    · simp [Labels.get, heq]
    · simp [Labels.get, heq]
  rw [toList_computeGroupKey, htexts, intercalate_bars, sum_map_count, List.length_map]

theorem one_of_separates (h : Separates groupBy) :
    ∀ g ∈ groupBy, ∀ g' ∈ groupBy, g = g' := by
  intro g hg g' hg'
  have hplain : ∀ g ∈ groupBy, Inherited.find g = none :=
    fun g hg => not_inherited_of_separates h hg
  by_contra hne
  -- as many bars under one name as the other occurs, and the other way round
  have hget := h
    ⟨"", [(g, String.ofList (List.replicate (groupBy.count g') '|'))], List.nodup_singleton _⟩
    ⟨"", [(g', String.ofList (List.replicate (groupBy.count g) '|'))], List.nodup_singleton _⟩
    (String.toList_inj.mp (by
      rw [toList_computeGroupKey_bars hplain, toList_computeGroupKey_bars hplain, Nat.mul_comm]))
    g hg
  have hnone : groupBy.count g' = 0 := by simpa [Labels.get, hne] using hget
  exact List.count_eq_zero.mp hnone hg'

theorem separates_iff : Separates groupBy ↔
    (∀ g ∈ groupBy, ∀ g' ∈ groupBy, g = g') ∧ ∀ g ∈ groupBy, Inherited.find g = none :=
  ⟨fun h => ⟨one_of_separates h, fun _ hg => not_inherited_of_separates h hg⟩,
    fun h => separates_of_one h.1 h.2⟩

end GroupKey

/-! ## The keys of the events -/

def AlertIdentity.event (sha256 : String → String) (a : AlertIdentity) :
    AlertFiredEventPayload where
  ruleId := a.ruleId
  ruleName := ""
  orgId := ""
  severity := ""
  value := 0
  threshold := 0
  operator := ""
  labels := a.labels
  firedAt := ""
  fingerprint := computeAlertFingerprint sha256 a.ruleId a.labels

theorem ownDispatchKey_iff {sha256 : String → String} {a : AlertIdentity} :
    a.OwnDispatchKey sha256 ↔ a.OwnFingerprint sha256 := by
  constructor
  · intro h b heq
    refine h b (a.event sha256) (b.event sha256) ⟨"", [], 0, 0⟩ ⟨"", [], 0, 0⟩
      ⟨rfl, rfl, rfl⟩ ⟨rfl, rfl, rfl⟩ ?_
    simp [NotificationConsumer.routeKey, AlertIdentity.event, heq, computeGroupKey]
  · rintro h b payload payload' route route' ⟨-, -, hfired⟩ ⟨-, -, hfired'⟩ hkey
    refine h b ?_
    rw [← hfired, ← hfired']
    exact congrArg DispatchKey.fingerprint hkey

/-- **What identifies an alert**: its labels in whatever order. Its fingerprint and its
dispatch keys are its own exactly when it is plain; a group key tells the maps apart exactly
when it is made of one label at most, and of none that every object has. -/
theorem identity_iff (sha256 : String → String) (hinj : Function.Injective sha256) :
    (∀ a b : AlertIdentity, a.Same b → computeAlertFingerprint sha256 a.ruleId a.labels =
      computeAlertFingerprint sha256 b.ruleId b.labels) ∧
    (∀ a : AlertIdentity, a.OwnFingerprint sha256 ↔ AlertIdentity.Plain a.ruleId a.labels) ∧
    (∀ a : AlertIdentity, a.OwnDispatchKey sha256 ↔ AlertIdentity.Plain a.ruleId a.labels) ∧
    ∀ groupBy, Separates groupBy ↔
      (∀ g ∈ groupBy, ∀ g' ∈ groupBy, g = g') ∧ ∀ g ∈ groupBy, Inherited.find g = none := by
  have hown : ∀ a : AlertIdentity,
      a.OwnFingerprint sha256 ↔ AlertIdentity.Plain a.ruleId a.labels := by
    refine fun a => ⟨plain_of_own, fun h b heq => ?_⟩
    have htext := congrArg String.toList (hinj heq)
    rw [toList_fingerprintText, toList_fingerprintText] at htext
    exact same_of_plain h htext
  exact ⟨fun a b h => congrArg sha256 h.fingerprintText_eq, hown,
    fun a => ownDispatchKey_iff.trans (hown a), fun groupBy => separates_iff⟩

/-- Any injective digest, here one that is SHA-256 on the alert's text. -/
theorem identity_iff_critical :
    AlertIdentity.OwnFingerprint
      (Equiv.swap "alert_cpu|severity=critical"
        "79a70547c413c6a7bb57b83f2a431ca6136a1c708c38cdb5963d3fcd8f513d3d")
      (oneLabel "alert_cpu" "severity" "critical") :=
  ((identity_iff _ (Equiv.injective _)).2.1 _).mpr (by
    change '|' ∉ "alert_cpu".toList ∧ _
    decide)

/-- Two labels, and one label whose value reads like both. -/
theorem labels_read_as_one :
    ¬ ∀ sha256 : String → String, Function.Injective sha256 →
      ∀ a : AlertIdentity, a.OwnFingerprint sha256 := by
  intro h
  have hsort : Text.sort ["a", "b"] = ["a", "b"] := List.mergeSort_of_pairwise (by decide)
  have hsame := h id Function.injective_id ⟨"alert_cpu", [("a", "1"), ("b", "2")], by decide⟩
    (oneLabel "alert_cpu" "a" "1,b=2") (String.toList_inj.mp (by
      change (fingerprintText _ _).toList = (fingerprintText _ _).toList
      rw [toList_oneLabel, toList_fingerprintText, entries]
      simp only [List.map_cons, List.map_nil, hsort]
      decide))
  exact absurd (hsame.2 "b") (by decide)

end OpenObs.Notifications
