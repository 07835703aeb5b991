import IronStock.Lib.UrlText

/-!
# Paths of URLs

A path is its segments. A text whose segments are decoded one by one is the path of a URL
behind a base that ends with its host, and nothing else of the URL, exactly if the text is
clean.
-/
namespace UrlText

/-! ## Segments -/

/-- What stands between the slashes of a path. -/
def segments (path : Bytes) : List Bytes := path.splitOn 47

/-- The segments of a text, decoded one by one. -/
def decodeSegments (s : List Char) : Option (List Bytes) := (s.splitOn '/').mapM decode

theorem segments_append (a b : Bytes) : segments (a ++ 47 :: b) = segments a ++ segments b :=
  List.splitOn_append_cons_self a b

theorem segments_of_not_mem {a : Bytes} (h : 47 ∉ a) : segments a = [a] :=
  List.splitOn_eq_singleton h

theorem not_mem_of_mem_segments {a seg : Bytes} (h : seg ∈ segments a) : 47 ∉ seg := by
  induction a generalizing seg with
  | nil =>
    rw [segments, List.splitOn_nil, List.mem_singleton] at h
    exact h ▸ List.not_mem_nil
  | cons x a ih =>
    rw [segments, List.splitOn_cons_eq_if_modifyHead] at h
    split at h
    · rcases List.mem_cons.mp h with rfl | h
      · exact List.not_mem_nil
      · exact ih h
    · next hx =>
      obtain ⟨first, rest, hsplit⟩ := List.exists_cons_of_ne_nil (List.splitOn_ne_nil 47 a)
      rw [hsplit, List.modifyHead_cons] at h
      have hmem : ∀ {t}, t ∈ first :: rest → 47 ∉ t := by
        intro t ht
        exact ih (by rw [segments, hsplit]; exact ht)
      rcases List.mem_cons.mp h with rfl | h
      · rw [List.mem_cons, not_or]
        exact ⟨fun h47 => hx (beq_iff_eq.mpr h47.symm), hmem (List.mem_cons_self ..)⟩
      · exact hmem (List.mem_cons_of_mem _ h)

theorem segments_injective {a b : Bytes} (h : segments a = segments b) : a = b := by
  have hjoin : ∀ x : Bytes, [47].intercalate (segments x) = x :=
    fun x => List.intercalate_splitOn 47
  rw [← hjoin a, ← hjoin b, h]

/-! ## Paths of several texts -/

theorem decodeSegments_append (a b : List Char) :
    decodeSegments (a ++ '/' :: b) =
      (decodeSegments a).bind fun x => (decodeSegments b).map fun y => x ++ y := by
  rw [decodeSegments, List.splitOn_append_cons_self, List.mapM_append]
  unfold decodeSegments
  cases List.mapM decode (List.splitOn '/' a) with
  | none => rfl
  | some x => cases List.mapM decode (List.splitOn '/' b) <;> rfl

/-- A text is decoded as its segments are. -/
theorem decode_intercalate (l : List (List Char)) (segs : List Bytes)
    (h : l.mapM decode = some segs) (hl : l ≠ []) :
    decode (['/'].intercalate l) = some ([47].intercalate segs) := by
  induction l generalizing segs with
  | nil => exact absurd rfl hl
  | cons s l ih =>
    rw [List.mapM_cons] at h
    obtain ⟨b, hb, h⟩ := Option.bind_eq_some_iff.mp h
    obtain ⟨bs, hbs, h⟩ := Option.bind_eq_some_iff.mp h
    cases h
    cases l with
    | nil =>
      cases hbs
      simpa [List.intercalate] using hb
    | cons t l =>
      have hrest := ih bs hbs (List.cons_ne_nil t l)
      obtain ⟨x, bs, rfl⟩ : ∃ x bs', bs = x :: bs' := by
        rw [List.mapM_cons] at hbs
        obtain ⟨x, _, h⟩ := Option.bind_eq_some_iff.mp hbs
        obtain ⟨bs', _, h⟩ := Option.bind_eq_some_iff.mp h
        cases h
        exact ⟨x, bs', rfl⟩
      rw [List.intercalate_cons_cons, List.intercalate_cons_cons, List.append_assoc,
        List.singleton_append, decode_append_slash, hb, hrest]
      simp

theorem decode_of_decodeSegments {t : List Char} {segs : List Bytes}
    (h : decodeSegments t = some segs) : decode t = some ([47].intercalate segs) := by
  have := decode_intercalate _ segs h (List.splitOn_ne_nil '/' t)
  rwa [List.intercalate_splitOn] at this

/-! ## Clean paths -/

/-- A segment that is a name: not empty, and no dot segment. -/
def CleanSegment (seg : Bytes) : Prop := seg ≠ [] ∧ seg ≠ [46] ∧ seg ≠ [46, 46]

instance (seg : Bytes) : Decidable (CleanSegment seg) := inferInstanceAs (Decidable (_ ∧ _))

/-- A text whose segments are names, also when they are decoded, and no more of them
then, with no mark that ends a path. -/
structure CleanText (s : List Char) : Prop where
  noFragment : '#' ∉ s
  noQuery : '?' ∉ s
  segments : ∃ segs, decodeSegments s = some segs ∧ ∀ seg ∈ segs, CleanSegment seg ∧ 47 ∉ seg

/-- The URL has these segments for its path and nothing else: they are names, and there is
no query and no fragment. -/
structure CleanUrl (expected : Option (List Bytes)) (u : Url) : Prop where
  path : ∃ segs, expected = some segs ∧ segments u.path = [] :: segs ∧
    ∀ seg ∈ segs, CleanSegment seg
  noQuery : u.rawQuery = []
  noFragment : u.fragment = []

theorem cleanText_append {a b : List Char} :
    CleanText (a ++ '/' :: b) ↔ CleanText a ∧ CleanText b := by
  constructor
  · rintro ⟨hf, hq, segs, hsegs, hclean⟩
    simp only [List.mem_append, List.mem_cons, not_or] at hf hq
    rw [decodeSegments_append] at hsegs
    obtain ⟨x, hx, hsegs⟩ := Option.bind_eq_some_iff.mp hsegs
    obtain ⟨y, hy, rfl⟩ := Option.map_eq_some_iff.mp hsegs
    exact ⟨⟨hf.1, hq.1, x, hx, fun seg h => hclean seg (List.mem_append_left _ h)⟩,
      ⟨hf.2.2, hq.2.2, y, hy, fun seg h => hclean seg (List.mem_append_right _ h)⟩⟩
  · rintro ⟨⟨hfa, hqa, x, hx, hcx⟩, hfb, hqb, y, hy, hcy⟩
    refine ⟨by simp [hfa, hfb], by simp [hqa, hqb], x ++ y, ?_, ?_⟩
    · rw [decodeSegments_append, hx, Option.bind_some, hy, Option.map_some]
    · intro seg hseg
      rcases List.mem_append.mp hseg with h | h
      · exact hcx seg h
      · exact hcy seg h

theorem decodeSegments_ne_nil {s : List Char} {segs : List Bytes}
    (h : decodeSegments s = some segs) : segs ≠ [] := by
  rintro rfl
  obtain ⟨x, l, hl⟩ := List.exists_cons_of_ne_nil (List.splitOn_ne_nil '/' s)
  rw [decodeSegments, hl, List.mapM_cons] at h
  obtain ⟨b, _, h⟩ := Option.bind_eq_some_iff.mp h
  obtain ⟨bs, _, h⟩ := Option.bind_eq_some_iff.mp h
  cases h

/-- A path of these segments is what their text is decoded to, behind a slash. -/
theorem path_of_segments {t : List Char} {segs : List Bytes} {path : Bytes}
    (hsegs : decodeSegments t = some segs) (hpath : segments path = [] :: segs) :
    ∃ b, decode t = some b ∧ path = 47 :: b := by
  refine ⟨_, decode_of_decodeSegments hsegs, ?_⟩
  have hjoin : [47].intercalate (segments path) = path := List.intercalate_splitOn 47
  obtain ⟨x, l, rfl⟩ := List.exists_cons_of_ne_nil (decodeSegments_ne_nil hsegs)
  rw [← hjoin, hpath, List.intercalate_cons_cons]
  rfl

theorem decode_eq_nil {s : List Char} (h : decode s = some []) : s = [] := by
  induction s using decode_cases with
  | nil => rfl
  | char c s hc ih =>
    rw [decode_cons hc] at h
    obtain ⟨b, _, hb⟩ := Option.map_eq_some_iff.mp h
    exact absurd (List.append_eq_nil_iff.mp hb).1 String.utf8EncodeChar_ne_nil
  | escape x y s ih =>
    rw [decode_escape] at h
    split at h
    · obtain ⟨b, _, hb⟩ := Option.map_eq_some_iff.mp h
      cases hb
    · cases h
  | percent => cases h
  | one x => cases h

/-- What is behind the path of a text without query and fragment is marks. -/
theorem marks_of_empty {t : List Char} (hq : (cut '?' (cut '#' t).1).2 = [])
    (hf : decode (cut '#' t).2 = some []) :
    ∃ marks, t = pathPart t ++ marks ∧ ∀ c ∈ marks, c = '#' ∨ c = '?' := by
  have hquery : ∃ marks, (cut '#' t).1 = pathPart t ++ marks ∧ ∀ c ∈ marks, c = '#' ∨ c = '?' := by
    obtain ⟨_, hcut⟩ | hcut := cut_eq '?' (cut '#' t).1
    · exact ⟨[], by rw [pathPart, hcut, List.append_nil], fun c hc => absurd hc List.not_mem_nil⟩
    · rw [hq] at hcut
      exact ⟨['?'], hcut, fun c hc => .inr (List.mem_singleton.mp hc)⟩
  obtain ⟨marks, hmarks, hall⟩ := hquery
  obtain ⟨_, hcut⟩ | hcut := cut_eq '#' t
  · rw [hcut] at hmarks
    exact ⟨marks, hmarks, hall⟩
  · rw [decode_eq_nil hf, hmarks, List.append_assoc] at hcut
    refine ⟨marks ++ ['#'], hcut, ?_⟩
    intro c hc
    rcases List.mem_append.mp hc with hc | hc
    · exact hall c hc
    · exact .inl (List.mem_singleton.mp hc)

theorem decode_marks {marks : List Char} (h : ∀ c ∈ marks, c = '#' ∨ c = '?') :
    decode marks = some (encode marks) ∧ (encode marks).count 47 = 0 := by
  have hnot : ∀ {c}, c ≠ '#' → c ≠ '?' → c ∉ marks := by
    intro c hf hq hmem
    rcases h c hmem with rfl | rfl
    · exact hf rfl
    · exact hq rfl
  refine ⟨decode_of_not_mem (hnot (by decide) (by decide)), ?_⟩
  exact List.count_eq_zero.mpr (mt slash_mem_encode.mp (hnot (by decide) (by decide)))

section Clean

variable {base t : List Char} {server u : Url}

/-- A path that arrives whole has nothing in front of it: what is in front would have a
slash more than the marks that are lost behind. -/
theorem whole_path {path b : Bytes} {marks : List Char}
    (hpath : path = [] ∨ path.head? = some 47) (hmarks : ∀ c ∈ marks, c = '#' ∨ c = '?')
    (h : path ++ 47 :: b = 47 :: (b ++ encode marks)) : path = [] ∧ marks = [] := by
  have hcount := congrArg (List.count 47) h
  simp only [List.count_append, List.count_cons_self, (decode_marks hmarks).2] at hcount
  have hnil : path = [] := by
    rcases hpath with hnil | hhead
    · exact hnil
    · have hpos : 0 < path.count 47 := List.count_pos_iff.mpr (List.mem_of_head? hhead)
      omega
  refine ⟨hnil, ?_⟩
  rw [hnil, List.nil_append, List.cons.injEq] at h
  have hlen := congrArg List.length h.2
  rw [List.length_append] at hlen
  have := length_le_length_encode marks
  exact List.eq_nil_of_length_eq_zero (by omega)

/-- A URL is clean if the base ends with its host and the text behind it is clean. -/
theorem cleanUrl_iff (hserver : parse base = some server) (hhost : server.host ≠ [])
    (hu : parse (base ++ '/' :: t) = some u) :
    CleanUrl (decodeSegments t) u ↔
      ('#' ∉ base ∧ '?' ∉ base) ∧ server.path = [] ∧ CleanText t := by
  obtain ⟨scheme, rest, more, hauthority⟩ := exists_authority hserver hhost
  rcases path_of_parse_append hserver hhost hu with
    ⟨hmark, _, hrest⟩ | ⟨hf, hq, hquery, hfragment, b, hb, hpath⟩
  · constructor
    · intro h
      rcases hrest with hne | hne
      · exact absurd h.noQuery hne
      · exact absurd h.noFragment hne
    · rintro ⟨hbase, _⟩
      exact absurd hmark (not_or.mpr hbase)
  constructor
  · rintro ⟨⟨segs, hsegs, hpath', hclean⟩, hnoQuery, hnoFragment⟩
    rw [hnoQuery] at hquery
    rw [hnoFragment] at hfragment
    obtain ⟨d, hd, hwhole⟩ := path_of_segments hsegs hpath'
    obtain ⟨marks, ht, hmarks⟩ := marks_of_empty hquery.symm hfragment
    have hdb : d = b ++ encode marks := by
      rw [ht, decode_append hb, (decode_marks hmarks).1] at hd
      exact (Option.some.inj hd).symm
    rw [hpath, hdb] at hwhole
    obtain ⟨hnil, rfl⟩ := whole_path hauthority.path_head hmarks hwhole
    rw [List.append_nil] at ht
    have hnone : '#' ∉ t ∧ '?' ∉ t := by
      obtain ⟨htf, htq, _⟩ | ⟨c, rest, _, hlong⟩ := pathPart_eq t
      · exact ⟨htf, htq⟩
      · have hlen := congrArg List.length hlong
        rw [← ht] at hlen
        simp at hlen
    refine ⟨⟨hf, hq⟩, hnil, hnone.1, hnone.2, segs, hsegs, fun seg hseg => ⟨hclean seg hseg, ?_⟩⟩
    exact not_mem_of_mem_segments (hpath' ▸ List.mem_cons_of_mem _ hseg)
  · rintro ⟨_, hnil, htf, htq, segs, hsegs, hclean⟩
    rw [cut_of_not_mem htf] at hquery hfragment
    rw [cut_of_not_mem htq] at hquery
    rw [pathPart, cut_of_not_mem htf, cut_of_not_mem htq, decode_of_decodeSegments hsegs] at hb
    cases hb
    have hjoin : segments ([47].intercalate segs) = segs :=
      List.splitOn_intercalate 47 (fun seg hseg => (hclean seg hseg).2)
        (decodeSegments_ne_nil hsegs)
    refine ⟨⟨segs, hsegs, ?_, fun seg hseg => (hclean seg hseg).1⟩, hquery,
      (Option.some.inj hfragment).symm⟩
    rw [hpath, hnil, segments_append, hjoin]
    rfl

end Clean

end UrlText
