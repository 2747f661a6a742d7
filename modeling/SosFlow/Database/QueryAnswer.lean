import SosFlow.Database.StatementTable
import SosFlow.Analytics.Output

/-!
# The answer to a query

The table of a query is packed for the client that asked, and unpacked into a
table of the client. What is packed are the texts of the cells without their
places, so both sides have to agree on the counts.

Whatever the query is, its table can be packed (`contents_handleSosaQuery`),
and what the client reads is what the statement had (`answer_received`).
-/

namespace SosFlow

/-- **The answer** to a query, as it is to be packed. -/
def sosaAnswer (prepare : CString → Option SqlStatement) (queryGuid : SosGuid)
    (querySql : Option CString) (duration : Double) : SosaResults :=
  match querySql.bind prepare with
  | none => ⟨querySql.getD labelNone, queryGuid, 0, [], [], by simp⟩
  | some statement =>
    { querySql := querySql.getD labelNone
      queryGuid
      execDuration := duration
      colNames := statement.columns
      rows := statement.rows.map fun vals => vals.map fun val => val.getD nullstr
      rows_length := by
        intro row hrow
        obtain ⟨vals, hvals, rfl⟩ := List.mem_map.mp hrow
        rw [List.length_map]
        exact statement.width vals hvals }

/-- **What the table of a statement is packed as.** -/
theorem ResultsTable.IsOf.contents {t : ResultsTable} {statement : SqlStatement}
    (h : t.IsOf statement) {sql : CString} (hsql : t.querySql = some sql)
    (hwidth : ∀ row ∈ statement.rows.map fun vals => vals.map fun val : Option CString =>
      val.getD nullstr, row.length = statement.columns.length) :
    t.object.contents = some ⟨sql, t.queryGuid, t.execDuration, statement.columns,
      statement.rows.map fun vals => vals.map fun val => val.getD nullstr, hwidth⟩ := by
  have hnames : readAll t.object.colNames t.object.colCount = some statement.columns :=
    readAll_eq_some.mpr ⟨h.colCount.symm, fun col _ => h.name col⟩
  have hrows : readAll (fun row => readAll (t.object.data row) t.object.colCount)
      t.object.rowCount =
        some (statement.rows.map fun vals => vals.map fun val => val.getD nullstr) := by
    refine readAll_eq_some.mpr ⟨by rw [List.length_map]; exact h.rowCount.symm, fun row hrow => ?_⟩
    have hlt : row < statement.rows.length := h.rowCount ▸ hrow
    have hlength := statement.width _ (List.getElem_mem hlt)
    rw [List.getElem?_map, List.getElem?_eq_getElem hlt, Option.map_some]
    refine readAll_eq_some.mpr
      ⟨by rw [List.length_map, hlength]; exact h.colCount.symm, fun col _ => ?_⟩
    rw [show t.object.data row col = t.entry row col from rfl, h.entry,
      List.getElem?_eq_getElem hlt, Option.bind_some, List.getElem?_map]
  rw [ResultsObject.contents, show t.object.querySql = some sql from hsql, hnames, hrows]
  exact dif_pos hwidth

/-- **Every query has a table that can be packed**, and it is packed as its answer. -/
theorem contents_handleSosaQuery (prepare : CString → Option SqlStatement) (queryGuid : SosGuid)
    (querySql : Option CString) (duration : Double) :
    ∃ t, sosdDbHandleSosaQuery prepare queryGuid querySql duration = some t ∧
      t.object.contents = some (sosaAnswer prepare queryGuid querySql duration) := by
  unfold sosdDbHandleSosaQuery sosaAnswer
  cases querySql.bind prepare with
  | none => exact ⟨_, rfl, rfl⟩
  | some statement =>
      obtain ⟨t, ht, hof, -⟩ := executeStatement_spec statement
      have hlabelled : ({ t with execDuration := duration }.label queryGuid querySql).IsOf
          statement :=
        ⟨⟨hof.shape.names, hof.shape.data⟩, hof.colCount, hof.rowCount, hof.name, hof.entry⟩
      refine ⟨_, ?_, hlabelled.contents rfl _⟩
      simp only [ht, Option.bind_eq_bind, Option.bind_some]

/-- **What the client reads is what the statement had**, if the message fits: the names,
the cells, and for the simple API the guid of the query and the counts. -/
theorem answer_received [DoubleCodec] (prepare : CString → Option SqlStatement)
    (queryGuid : SosGuid) (sql : CString) (statement : SqlStatement)
    (hprepare : prepare sql = some statement) (duration : Double) (commRank : CInt)
    (buffer : SosBuffer) (target : ResultsObject) (hwiped : buffer.len = 0)
    (hmax : headerSize ≤ buffer.max) (hcols : statement.columns.length ≤ intMax)
    (hrows : statement.rows.length ≤ intMax)
    (hfits : CallsFit buffer.max headerSize (sosaResultsToBuffer commRank buffer.max
      (sosaAnswer prepare queryGuid (some sql) duration)).calls) :
    ∃ t sent received,
      sosdDbHandleSosaQuery prepare queryGuid (some sql) duration = some t ∧
      sosaResultsPacked commRank buffer t.object = some sent ∧
      sosaResultsFromBuffer target sent = some received ∧
      received.colCount = statement.columns.length ∧
      received.rowCount = statement.rows.length ∧
      (∀ (col : ℕ) (name : CString), statement.columns[col]? = some name →
        received.colNames col = some name) ∧
      (∀ (row col : ℕ) (vals : List (Option CString)) (val : Option CString),
        statement.rows[row]? = some vals → vals[col]? = some val →
          received.data row col = some (val.getD nullstr)) ∧
      ssosFeedbackMetadata sent =
        some (queryGuid, intOf statement.columns.length, intOf statement.rows.length) := by
  obtain ⟨t, ht, hcontents⟩ := contents_handleSosaQuery prepare queryGuid (some sql) duration
  obtain ⟨m, hm, hframed, -⟩ := zipPackZip_of_fits (by rw [hwiped]; exact Int.natCast_nonneg _)
    hmax hfits
  have hguid : (sosaAnswer prepare queryGuid (some sql) duration).queryGuid = queryGuid := by
    simp only [sosaAnswer, Option.bind_some, hprepare]
  have hcolNames : (sosaAnswer prepare queryGuid (some sql) duration).colNames =
      statement.columns := by
    simp only [sosaAnswer, Option.bind_some, hprepare]
  have hcells : (sosaAnswer prepare queryGuid (some sql) duration).rows =
      statement.rows.map fun vals => vals.map fun val => val.getD nullstr := by
    simp only [sosaAnswer, Option.bind_some, hprepare]
  have hlength : (sosaAnswer prepare queryGuid (some sql) duration).rows.length =
      statement.rows.length := by
    rw [hcells, List.length_map]
  obtain ⟨⟨received, hreceived, -, hcolCount, hrowCount, hnames, hread⟩, hmetadata⟩ :=
    fromBuffer_of_framed target (hcolNames.symm ▸ hcols) (hlength ▸ hrows) hframed
  rw [hcolNames] at hcolCount hnames hmetadata
  rw [hlength] at hrowCount hmetadata
  rw [hguid] at hmetadata
  refine ⟨t, m.buffer, received, ht, ?_, hreceived, hcolCount, hrowCount, hnames, ?_, hmetadata⟩
  · simp only [sosaResultsPacked, hcontents, hm, Option.bind_eq_bind, Option.bind_some]
  · intro row col vals val hrow hcol
    refine hread row col (vals.map fun val => val.getD nullstr) _ ?_ ?_
    · rw [hcells, List.getElem?_map, hrow, Option.map_some]
    · rw [List.getElem?_map, hcol, Option.map_some]

theorem answer_received_two_rows :
    letI := DoubleCodec.bits
    ∃ t sent received,
      sosdDbHandleSosaQuery (fun _ => some twoRows) 7 (some nameX) 0 = some t ∧
      sosaResultsPacked 0 (sosBufferInitSized 128 (by decide)) t.object = some sent ∧
      sosaResultsFromBuffer sosaResultsInit sent = some received ∧
      received.data 0 0 = some nameX ∧ received.data 1 0 = some nullstr ∧
      ssosFeedbackMetadata sent = some (7, 1, 2) := by
  let _ := DoubleCodec.bits
  have hmax : (sosBufferInitSized 128 (by decide)).max = 128 := by
    simp only [SosBuffer.max, sosBufferInitSized, List.length_replicate]
  obtain ⟨t, sent, received, ht, hsent, hreceived, -, -, -, hcells, hmetadata⟩ :=
    answer_received (fun _ => some twoRows) 7 nameX twoRows rfl 0 0
      (sosBufferInitSized 128 (by decide)) sosaResultsInit rfl (by rw [hmax]; decide) (by decide)
      (by decide) (by rw [hmax]; decide)
  exact ⟨t, sent, received, ht, hsent, hreceived, hcells 0 0 [some nameX] (some nameX) rfl rfl,
    hcells 1 0 [none] none rfl rfl, hmetadata⟩

end SosFlow
